import Lox.Proofs.NearestNumber
import Lox.Proofs.Printing
import Lox.Proofs.Segmentation

/-!
# Numerals

What the text of a number denotes is told by its digits alone: a digit before the point counts a
power of ten by its place, and one behind it a fraction. Every numeral of a source can be read, and
its value is rounded once, however many digits it has.

## Main definitions

* `wholeValue`, `fractionValue`: what digits before and behind the point denote
* `decimalValue text`: what the text of a number denotes

## Main results

* `readNumber?_rounds`: the text of a number is read as the nearest number to what it denotes
* `scan_roundsNumbers`: no scan reports a number, and every token of a number has that value
-/

namespace Lox

open Number (Binary64 Decimal)

/-! ## What digits denote -/

/-- The value of a digit. -/
def digitValue (c : Char) : ℕ := c.toNat - '0'.toNat

/-- What digits before the point denote: each one a power of ten by its place. -/
def wholeValue : List Char → ℕ
  | [] => 0
  | d :: ds => digitValue d * 10 ^ ds.length + wholeValue ds

/-- What digits behind the point denote. -/
def fractionValue : List Char → ℚ
  | [] => 0
  | e :: es => (digitValue e + fractionValue es) / 10

/-- **What the text of a number denotes.** Without a point there is nothing behind it. -/
def decimalValue (text : List Char) : ℚ :=
  wholeValue (text.takeWhile (· ≠ '.')) + fractionValue (text.dropWhile (· ≠ '.')).tail

/-- Digits are read from the left, by what has been read before. -/
theorem ofDigitChars_eq_wholeValue (ds : List Char) :
    Nat.ofDigitChars 10 ds 0 = wholeValue ds := by
  induction ds with
  | nil => rfl
  | cons d ds ih =>
    rw [Nat.ofDigitChars_cons, Nat.ofDigitChars_eq_ofDigitChars_zero, ih, wholeValue, digitValue]
    ring

/-- Digits behind the point are those of a whole number, each as many places further right. -/
theorem fractionValue_eq (es : List Char) : fractionValue es = wholeValue es / 10 ^ es.length := by
  induction es with
  | nil => simp [fractionValue, wholeValue]
  | cons e es ih =>
    rw [fractionValue, ih, wholeValue, List.length_cons, pow_succ]
    push_cast
    field_simp

section

variable {ds es : List Char}

theorem ne_point_of_isDigit {c : Char} (h : IsDigit c) : decide (c ≠ '.') = true := by
  refine decide_eq_true ?_
  rintro rfl
  exact absurd h (by decide)

theorem decimalValue_whole (hds : ∀ d ∈ ds, IsDigit d) : decimalValue ds = wholeValue ds := by
  have hpoint : ∀ d ∈ ds, decide (d ≠ '.') = true := fun d hd => ne_point_of_isDigit (hds d hd)
  rw [decimalValue, List.takeWhile_eq_self_iff.mpr hpoint, List.dropWhile_eq_nil_iff.mpr hpoint,
    List.tail_nil, fractionValue, add_zero]

theorem decimalValue_fraction (hds : ∀ d ∈ ds, IsDigit d) :
    decimalValue (ds ++ '.' :: es) = wholeValue ds + fractionValue es := by
  have hpoint : ∀ d ∈ ds, decide (d ≠ '.') = true := fun d hd => ne_point_of_isDigit (hds d hd)
  rw [decimalValue, List.takeWhile_append_of_pos hpoint, List.dropWhile_append_of_pos hpoint,
    List.takeWhile_cons_of_neg (by decide), List.dropWhile_cons_of_neg (by decide), List.append_nil,
    List.tail_cons]

end

/-! ## Reading -/

/-- **The decimal that is read from the text of a number** is what the text denotes. -/
theorem IsNumber.exists_decimal {text : List Char} (h : IsNumber text) :
    ∃ d, Decimal.parse? text = some d ∧ (d.digits : ℚ) / 10 ^ d.places = decimalValue text := by
  cases h with
  | whole hne hds =>
    refine ⟨_, parse?_whole hne (forall_isDigit_iff.mpr hds), ?_⟩
    rw [decimalValue_whole hds, ofDigitChars_eq_wholeValue, pow_zero, div_one]
  | @fraction ds es hne hne' hds hes =>
    refine ⟨_, parse?_fraction hne hne' (forall_isDigit_iff.mpr hds) (forall_isDigit_iff.mpr hes), ?_⟩
    rw [decimalValue_fraction hds, fractionValue_eq, Nat.ofDigitChars_append,
      Nat.ofDigitChars_eq_ofDigitChars_zero, ofDigitChars_eq_wholeValue, ofDigitChars_eq_wholeValue]
    push_cast
    field_simp

/-- **The text of a number is read as the nearest number** to what it denotes. -/
theorem readNumber?_rounds {text : List Char} (h : IsNumber text) :
    ∃ x, Literal.readNumber? text = some (.number x) ∧ Binary64.Rounds (decimalValue text) x := by
  obtain ⟨d, hd, hvalue⟩ := h.exists_decimal
  refine ⟨d.toBinary64, by rw [Literal.readNumber?, hd]; rfl, ?_⟩
  have hten : 0 < Nat.pow 10 d.places := Nat.pow_pos (by decide)
  have hrounds := Binary64.rounds_ofRatio d.digits hten
  rw [← hvalue]
  exact_mod_cast hrounds

/-- The value of a lexeme that is a number. -/
theorem Lexeme.literal_rounds (l : Lexeme) (h : l.kind = .number) : IsNumber l.text ∧
    ∃ x, l.literal = some (.number x) ∧ Binary64.Rounds (decimalValue l.text) x := by
  obtain ⟨kind, text, hl⟩ := l
  obtain rfl : kind = .number := h
  exact ⟨hl.isNumber, readNumber?_rounds hl.isNumber⟩

/-! ## The numerals of a source -/

/-- **Every number of a source is rounded once.** No scan reports that a number cannot be read, and
every token of a number has the nearest number for its value. -/
theorem scan_roundsNumbers (source : String) :
    (∀ d ∈ (scan source).report.toList, ∀ code ∈ d.code, code.text ≠ "EL003") ∧
    ∀ t ∈ (scan source).tokens, t.kind = .number → IsNumber t.lexeme.toList ∧
      ∃ x, t.literal = some (.number x) ∧ Binary64.Rounds (decimalValue t.lexeme.toList) x := by
  constructor
  · intro d hd code hcode
    rw [scan_report, faults_eq_visits] at hd
    obtain ⟨f, hf, rfl⟩ := List.mem_map.mp hd
    obtain ⟨v, hv, hvf⟩ := List.mem_filterMap.mp hf
    rw [Fault.diagnostic_code] at hcode
    obtain rfl := Option.some.inj hcode
    rcases (cause_of_fault hv hvf).2 with ⟨c, -, hc⟩ | ⟨body, -, hc⟩
    · rw [hc, code_text_unexpected]
      decide
    · rw [hc, code_text_unterminated]
      decide
  · intro t ht hkind
    rw [scan_tokens, tokens_eq_visits, List.mem_append, List.mem_singleton] at ht
    rcases ht with ht | rfl
    · obtain ⟨v, hv, hvt⟩ := List.mem_filterMap.mp ht
      obtain ⟨l, hl⟩ := exists_lexeme_of_token hv hvt
      obtain ⟨hk, hlexeme, hliteral⟩ : l.kind = t.kind ∧ String.ofList l.text = t.lexeme ∧
          l.literal = t.literal := by simpa [Lexeme.content, Token.content] using hl
      rw [← hlexeme, ← hliteral, String.toList_ofList]
      exact l.literal_rounds (hk.trans hkind)
    · cases hkind

/-- `2 ^ 53 + 1` is the mean of two numbers, of which the one with the even significand is taken. -/
theorem scan_rounds_mean : ∃ x, (scan "9007199254740993").tokens =
      [⟨.number, "9007199254740993", some (.number x), 1⟩, .eof 1] ∧
    Binary64.Rounds 9007199254740993 x ∧ x.bits = 0x4340000000000000 := by
  have htokens : (scan "9007199254740993").tokens =
      [⟨.number, "9007199254740993", some (.number ⟨0x4340000000000000⟩), 1⟩, .eof 1] := by
    decide +kernel
  have h := (scan_roundsNumbers "9007199254740993").2 _ (htokens ▸ List.mem_cons_self) rfl
  obtain ⟨-, x, hx, hrounds⟩ := h
  cases hx
  refine ⟨_, htokens, ?_, rfl⟩
  have hvalue : decimalValue "9007199254740993".toList = 9007199254740993 := by
    decide +kernel
  exact hvalue ▸ hrounds

end Lox
