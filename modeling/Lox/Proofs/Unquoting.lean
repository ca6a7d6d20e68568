import Lox.Text.Quoted

/-!
# Quoted text can be read back

A reader of quoted text goes through it once and keeps only where it is: among the characters of
the text, behind a backslash, or in a code point. What it reads of a quoted text is the text, and it
stops at the closing mark, so that more may stand behind it. There is one step for each form in
which a character is written.

## Main definitions

* `Unquoting`: where a reader is
* `unquote`: the text between two quotation marks, and what is behind it

## Main results

* `unquoteFrom_toDigits`: a code point is read back
* `unquoteFrom_escape`: a character is read back, in whatever form it is written
* `unquote_quote`: a quoted text is read back, whatever is behind it
-/

namespace Lox.Text

/-- Where a reader of quoted text is. -/
inductive Unquoting
  /-- Among characters of the text. -/
  | plain
  /-- Behind a backslash. -/
  | escaped
  /-- Before the brace of a code point. -/
  | brace
  /-- In a code point, whose digits so far are a number. -/
  | code (n : Nat)

/-- The character that a letter behind a backslash stands for; a backslash and a mark stand for
themselves. -/
def unescape (letter : Char) : Char :=
  match letter with
  | '0' => '\x00'
  | 't' => '\t'
  | 'n' => '\n'
  | 'r' => '\r'
  | c => c

/-- The value of a hexadecimal digit, of which the letters are small. -/
def hexValue (digit : Char) : Nat :=
  if digit.isDigit then digit.toNat - '0'.toNat else digit.toNat - 'a'.toNat + 10

/-- One more character at the beginning of what was read. -/
def keep (c : Char) : Option (List Char × List Char) → Option (List Char × List Char) :=
  Option.map fun (text, behind) => (c :: text, behind)

/-- The rest of a text up to its closing mark, and what is behind the mark. -/
def unquoteFrom : Unquoting → List Char → Option (List Char × List Char)
  | _, [] => none
  | .plain, c :: rest =>
    if c = '"' then some ([], rest)
    else if c = '\\' then unquoteFrom .escaped rest
    else keep c (unquoteFrom .plain rest)
  | .escaped, c :: rest =>
    if c = 'u' then unquoteFrom .brace rest else keep (unescape c) (unquoteFrom .plain rest)
  | .brace, c :: rest => if c = '\x7b' then unquoteFrom (.code 0) rest else none
  | .code n, c :: rest =>
    if c = '\x7d' then keep (Char.ofNat n) (unquoteFrom .plain rest)
    else unquoteFrom (.code (16 * n + hexValue c)) rest

/-- **The text between two quotation marks**, and what is behind the second one. -/
def unquote : List Char → Option (List Char × List Char)
  | '"' :: rest => unquoteFrom .plain rest
  | _ => none

/-! ## One character -/

theorem digitChar_of_lt : ∀ d < 16,
    hexValue (Nat.digitChar d) = d ∧ Nat.digitChar d ≠ '\x7d' := by decide

/-- **A code point is read back** from its digits. -/
theorem unquoteFrom_toDigits (n : Nat) (rest : List Char) :
    unquoteFrom (.code 0) (Nat.toDigits 16 n ++ rest) = unquoteFrom (.code n) rest := by
  induction n using Nat.strongRecOn generalizing rest with
  | ind n ih =>
    have hdigit (m d : Nat) (hd : d < 16) : unquoteFrom (.code m) (Nat.digitChar d :: rest) =
        unquoteFrom (.code (16 * m + d)) rest := by
      obtain ⟨hvalue, hne⟩ := digitChar_of_lt d hd
      rw [unquoteFrom, if_neg hne, hvalue]
    by_cases hn : n < 16
    · rw [Nat.toDigits_of_lt_base hn, List.singleton_append, hdigit 0 n hn, Nat.mul_zero,
        Nat.zero_add]
    · have hle : 16 ≤ n := Nat.le_of_not_lt hn
      rw [Nat.toDigits_of_base_le (by decide) hle, List.append_assoc,
        ih (n / 16) (Nat.div_lt_self (by omega) (by decide)), List.singleton_append,
        hdigit (n / 16) (n % 16) (Nat.mod_lt n (by decide)), Nat.div_add_mod]

theorem unquoteFrom_codePoint (c : Char) (rest : List Char) :
    unquoteFrom .plain (codePoint c ++ rest) = keep c (unquoteFrom .plain rest) := by
  have hcode : unquoteFrom .plain (codePoint c ++ rest) =
      unquoteFrom (.code 0) (Nat.toDigits 16 c.toNat ++ ('\x7d' :: rest)) := by
    rw [codePoint, List.append_assoc]
    rfl
  rw [hcode, unquoteFrom_toDigits, unquoteFrom, if_pos rfl, Char.ofNat_toNat]

/-- **A character is read back**, in whatever form it is written. -/
theorem unquoteFrom_escape (c : Char) (rest : List Char) :
    unquoteFrom .plain (escape '"' c ++ rest) = keep c (unquoteFrom .plain rest) := by
  unfold escape
  split
  · rfl
  · rfl
  · rfl
  · rfl
  · rfl
  · next hbackslash =>
    split
    · next hmark =>
      subst hmark
      rfl
    · next hmark =>
      split
      · rw [List.singleton_append, unquoteFrom, if_neg hmark, if_neg hbackslash]
      · exact unquoteFrom_codePoint c rest

/-! ## The whole text -/

/-- **A quoted text is read back**, whatever is behind it. -/
theorem unquote_quote (text rest : List Char) :
    unquote (quote '"' text ++ rest) = some (text, rest) := by
  have hbody : unquoteFrom .plain (text.flatMap (escape '"') ++ '"' :: rest) =
      some (text, rest) := by
    induction text with
    | nil => rw [List.flatMap_nil, List.nil_append, unquoteFrom, if_pos rfl]
    | cons c text ih =>
      rw [List.flatMap_cons, List.append_assoc, unquoteFrom_escape, ih]
      rfl
  rw [quote, List.append_assoc]
  exact hbody

/-- An escape character, a quotation mark and an accent of its own are written in three forms. -/
example : quote '"' "\x1b\"é\u0301".toList = "\"\\u\x7b1b\x7d\\\"é\\u\x7b301\x7d\"".toList ∧
    unquote ("\"\\u\x7b1b\x7d\\\"é\\u\x7b301\x7d\" line".toList) =
      some ("\x1b\"é\u0301".toList, " line".toList) := by decide +kernel

end Lox.Text
