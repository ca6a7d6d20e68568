import Lox.Proofs.FileCommands
import Lox.Proofs.LineNumbers
import Lox.Proofs.Printing
import Lox.Proofs.Stripping

/-!
# The list of tokens can be read back

In a list of tokens nothing is quoted: a lexeme and the value of a string stand in their row as they
are, and may hold spaces, line feeds, and what looks like another row. Blanks at the end of a row are
missing. Even so the rows can be told apart. The number and the kind of a token stand in columns that
end before a blank. Behind them stands the lexeme, with a blank or the end of the row behind it, and
there a scan would cut off the same lexeme. The lexeme tells the value, and so where the row ends.

## Main definitions

* `Token.columns`, `spacedValue`: the two parts of a row, with all blanks
* `IsTokenList`: lists of tokens as a scan gives them

## Main results

* `Token.toList_row_of_isLexeme`: no part of a lexeme is trimmed
* `row_append_inj`: a row tells its token, and where it ends
* `IsTokenList.rows_inj`: the rows tell all tokens
* `lex_stdout_eq_iff`: two sources with the same list have the same tokens
-/

namespace Lox

open Text (isBlank dropTrailing)

/-! ## Columns -/

/-- Two runs that stop are the same if the texts are, and so is what stands behind them. -/
theorem append_inj_of_stops {p : Char → Bool} {run other behind behind' : List Char}
    (hr : ∀ c ∈ run, p c = true) (ho : ∀ c ∈ other, p c = true) (hs : Stops p behind)
    (hs' : Stops p behind') (h : run ++ behind = other ++ behind') :
    run = other ∧ behind = behind' := by
  constructor
  · have ht := congrArg (List.takeWhile p) h
    rwa [takeWhile_append_of_stops hr hs, takeWhile_append_of_stops ho hs'] at ht
  · have hd := congrArg (List.dropWhile p) h
    rwa [dropWhile_append_of_stops hr hs, dropWhile_append_of_stops ho hs'] at hd

theorem toString_injective {m n : Nat} (h : toString m = toString n) : m = n := by
  have hdigits : Nat.toDigits 10 m = Nat.toDigits 10 n := by
    simpa [Nat.toString_eq_repr] using congrArg String.toList h
  calc
    m = Nat.ofDigitChars 10 (Nat.toDigits 10 m) 0 := Nat.ofDigitChars_ten_toDigits.symm
    _ = Nat.ofDigitChars 10 (Nat.toDigits 10 n) 0 := by rw [hdigits]
    _ = n := Nat.ofDigitChars_ten_toDigits

theorem isDigit_of_mem_toString {n : Nat} : ∀ c ∈ (toString n).toList, c.isDigit = true := by
  intro c hc
  rw [Nat.toString_eq_repr, Nat.toList_repr] at hc
  exact Nat.isDigit_of_mem_toDigits (by decide) (by decide) hc

theorem toList_toString_ne_nil (n : Nat) : (toString n).toList ≠ [] := by
  rw [Nat.toString_eq_repr, Nat.toList_repr]
  exact Nat.toDigits_ne_nil

/-- **A number in its column tells where the column ends**, if a space follows. -/
theorem padStart_append_inj {width m n : Nat} {behind behind' : List Char}
    (h : (Text.padStart width (toString m)).toList ++ ' ' :: behind =
      (Text.padStart width (toString n)).toList ++ ' ' :: behind') :
    m = n ∧ behind = behind' := by
  rw [Text.toList_padStart, Text.toList_padStart, List.append_assoc, List.append_assoc] at h
  have hstop (k : Nat) (more : List Char) : Stops (· = ' ') ((toString k).toList ++ ' ' :: more) := by
    obtain ⟨d, ds, hds⟩ := List.exists_cons_of_ne_nil (toList_toString_ne_nil k)
    have hd : d.isDigit = true := isDigit_of_mem_toString d (hds ▸ List.mem_cons_self)
    rw [hds]
    apply stops_cons
    apply decide_eq_false
    rintro rfl
    cases hd
  have hspaces (k : Nat) : ∀ c ∈ List.replicate k ' ', decide (c = ' ') = true := by
    intro c hc
    exact decide_eq_true (List.eq_of_mem_replicate hc)
  obtain ⟨-, hdigits⟩ := append_inj_of_stops (hspaces _) (hspaces _) (hstop _ _) (hstop _ _) h
  obtain ⟨hnumber, hbehind⟩ := append_inj_of_stops isDigit_of_mem_toString isDigit_of_mem_toString
    (stops_cons (by decide)) (stops_cons (by decide)) hdigits
  exact ⟨toString_injective (String.toList_inj.mp hnumber), (List.cons.inj hbehind).2⟩

/-- The characters in the name of a kind. -/
def isNamePart (c : Char) : Bool := c.isUpper || c = '_'

theorem Kind.isNamePart_of_mem_name (k : Kind) : ∀ c ∈ k.name.toList, isNamePart c = true := by
  have all : ∀ k ∈ Kind.all, k.name.toList.all isNamePart = true := by decide +kernel
  exact List.all_eq_true.mp (all k (Kind.mem_all k))

theorem Kind.eq_eof_of_name (k : Kind) (h : k.name = Kind.eof.name) : k = .eof := by
  have all : ∀ k ∈ Kind.all, k.name = Kind.eof.name → k = .eof := by decide +kernel
  exact all k (Kind.mem_all k) h

/-- **The number and the kind** in their columns tell where the columns end. -/
theorem columns_append_inj {m n : Nat} {k k' : Kind} {behind behind' : List Char}
    (hs : Stops isNamePart behind) (hs' : Stops isNamePart behind')
    (h : (Text.padStart 4 (toString m)).toList ++ ' ' :: ' ' :: (k.name.toList ++ behind) =
      (Text.padStart 4 (toString n)).toList ++ ' ' :: ' ' :: (k'.name.toList ++ behind')) :
    m = n ∧ k.name = k'.name ∧ behind = behind' := by
  obtain ⟨hnumber, hname⟩ := padStart_append_inj h
  obtain ⟨hname, hbehind⟩ := append_inj_of_stops k.isNamePart_of_mem_name
    k'.isNamePart_of_mem_name hs hs' (List.cons.inj hname).2
  exact ⟨hnumber, String.toList_inj.mp hname, hbehind⟩

/-! ## Rows -/

/-- A value behind a space, if there is one. -/
def spacedValue : Option Literal → List Char
  | none => []
  | some literal => ' ' :: literal.text.toList

theorem head_spacedValue {value : Option Literal} {c : Char} (h : c ∈ (spacedValue value).head?) :
    c = ' ' := by
  cases value with
  | none => cases h
  | some literal => exact (Option.some.inj h).symm

namespace Token

/-- The row of a token up to its lexeme. -/
def columns (t : Token) : List Char :=
  (Text.padStart 4 (toString t.line.toNat)).toList ++
    ' ' :: ' ' :: ((Text.padEnd 14 t.kind.name).toList ++ ' ' :: t.lexeme.toList)

theorem toList_row (t : Token) :
    t.row.toList = dropTrailing isBlank (t.columns ++ spacedValue t.literal) := by
  rw [row, Text.trimEnd, String.toList_ofList, String.toList_append]
  have hcolumns : (Text.padStart 4 (toString t.line.toNat) ++ "  " ++
      Text.padEnd 14 t.kind.name ++ " " ++ t.lexeme).toList = t.columns := by
    simp only [String.toList_append, columns, List.append_assoc]
    simp
  rw [hcolumns, spacedValue.eq_def]
  cases t.literal with
  | none => simp only [String.toList_empty]
  | some literal => simp only [String.toList_append, String.reduceToList, List.cons_append,
      List.nil_append]

/-- **No part of a lexeme is trimmed.** -/
theorem toList_row_of_isLexeme {t : Token} (h : IsLexeme t.kind t.lexeme.toList) :
    t.row.toList = t.columns ++ dropTrailing isBlank (spacedValue t.literal) := by
  have hlexeme : dropTrailing isBlank t.lexeme.toList = t.lexeme.toList := by
    apply h.dropTrailing_eq
    · exact fun c hc => hc.isBlank_eq_false
    · exact fun c hc => hc.isBlank_eq_false
    · decide
    · decide
    · decide
  have hcolumns : dropTrailing isBlank t.columns = t.columns := by
    have split : t.columns = ((Text.padStart 4 (toString t.line.toNat)).toList ++
        ' ' :: ' ' :: ((Text.padEnd 14 t.kind.name).toList ++ [' '])) ++ t.lexeme.toList := by
      simp [columns]
    rw [split, Text.dropTrailing_append, hlexeme, if_neg h.ne_nil]
  rw [toList_row, Text.dropTrailing_append]
  split
  · next hvalue => rw [hcolumns, hvalue, List.append_nil]
  · rfl

/-- The row of the end is trimmed behind its kind. -/
theorem toList_row_eof (line : UInt32) :
    (Token.eof line).row.toList =
      (Text.padStart 4 (toString line.toNat)).toList ++ ' ' :: ' ' :: Kind.eof.name.toList := by
  have split : (Token.eof line).columns ++ spacedValue (Token.eof line).literal =
      (Text.padStart 4 (toString line.toNat)).toList ++
        ' ' :: ' ' :: ((Text.padEnd 14 Kind.eof.name).toList ++ [' ']) := by
    simp [columns, spacedValue, eof]
  have trimmed : dropTrailing isBlank
      (' ' :: ' ' :: ((Text.padEnd 14 Kind.eof.name).toList ++ [' '])) =
        ' ' :: ' ' :: Kind.eof.name.toList := by
    decide +kernel
  rw [toList_row, split, Text.dropTrailing_append, trimmed, if_neg (List.cons_ne_nil _ _)]

end Token

/-! ## Rows one behind the other -/

/-- The kind and the text are all of a lexeme. -/
@[ext] theorem Lexeme.ext {l m : Lexeme} (hkind : l.kind = m.kind) (htext : l.text = m.text) :
    l = m := by
  obtain ⟨kind, text, hl⟩ := l
  obtain ⟨kind', text', hm⟩ := m
  obtain rfl : kind = kind' := hkind
  obtain rfl : text = text' := htext
  rfl

/-- What stands behind a lexeme in its row, and in the rows below. -/
def Lexeme.tail (l : Lexeme) (below : List Char) : List Char :=
  dropTrailing isBlank (spacedValue l.literal) ++ '\n' :: below

/-- Behind a lexeme there is a space, or its row ends. -/
theorem Lexeme.endsLexeme_tail (l : Lexeme) (below : List Char) : EndsLexeme (l.tail below) := by
  intro c hc
  obtain ⟨dropped, hvalue, -⟩ := Text.exists_eq_dropTrailing_append isBlank (spacedValue l.literal)
  rw [Lexeme.tail] at hc
  cases hd : dropTrailing isBlank (spacedValue l.literal) with
  | nil =>
    rw [hd] at hc
    obtain rfl : '\n' = c := Option.some.inj hc
    decide
  | cons d ds =>
    rw [hd] at hc hvalue
    obtain rfl : d = c := Option.some.inj hc
    have hhead : d ∈ (spacedValue l.literal).head? := by
      rw [hvalue]
      rfl
    rw [head_spacedValue hhead]
    decide

theorem Lexeme.toList_row (l : Lexeme) (line : UInt32) (below : List Char) :
    (l.token line).row.toList ++ '\n' :: below =
      (Text.padStart 4 (toString line.toNat)).toList ++ ' ' :: ' ' :: (l.kind.name.toList ++
        (List.replicate (14 - l.kind.name.toList.length) ' ' ++
          ' ' :: (l.text ++ l.tail below))) := by
  have h : IsLexeme (l.token line).kind (l.token line).lexeme.toList := by
    rw [Lexeme.token, String.toList_ofList]
    exact l.isLexeme
  rw [Token.toList_row_of_isLexeme h, Token.columns, Text.toList_padEnd, Lexeme.tail]
  simp [Lexeme.token]

/-- The spaces behind the name of a kind. -/
theorem stops_replicate_append (n : Nat) (behind : List Char) :
    Stops isNamePart (List.replicate n ' ' ++ ' ' :: behind) := by
  cases n with
  | zero => exact stops_cons (by decide)
  | succ n => exact stops_cons (by decide)

/-- **The row of a lexeme tells its token**, and where it ends. -/
theorem Lexeme.row_append_inj {l m : Lexeme} {line line' : UInt32} {below below' : List Char}
    (h : (l.token line).row.toList ++ '\n' :: below =
      (m.token line').row.toList ++ '\n' :: below') :
    l.token line = m.token line' ∧ below = below' := by
  rw [l.toList_row, m.toList_row] at h
  obtain ⟨hline, hname, hbehind⟩ := columns_append_inj (stops_replicate_append _ _)
    (stops_replicate_append _ _) h
  obtain rfl : line = line' := UInt32.toNat_inj.mp hline
  rw [hname, List.append_cancel_left_eq] at hbehind
  have hsame : l.text ++ l.tail below = m.text ++ m.tail below' := (List.cons.inj hbehind).2
  -- a scan would cut off both of them there, but it cuts off only one
  have hl : l.segment.Fits (l.tail below) := l.isLexeme.fits (l.endsLexeme_tail below)
  have hm : m.segment.Fits (m.tail below') := m.isLexeme.fits (m.endsLexeme_tail below')
  obtain ⟨c, rest, ht, hfirst⟩ := Segment.first_eq_of_fits hl
  obtain ⟨c', rest', ht', hfirst'⟩ := Segment.first_eq_of_fits hm
  obtain ⟨rfl, rfl⟩ : c = c' ∧ rest = rest' := by
    apply List.cons.inj
    rw [← ht, ← ht']
    exact hsame
  obtain ⟨hsegment, htail⟩ := Prod.mk.inj (hfirst.symm.trans hfirst')
  obtain rfl : l = m := by
    obtain ⟨hkind, htext⟩ := Segment.lexeme.inj hsegment
    exact Lexeme.ext hkind htext
  rw [Lexeme.tail, Lexeme.tail, List.append_cancel_left_eq] at htail
  exact ⟨rfl, (List.cons.inj htail).2⟩

theorem Token.toList_row_eof_append (line : UInt32) (below : List Char) :
    (Token.eof line).row.toList ++ '\n' :: below =
      (Text.padStart 4 (toString line.toNat)).toList ++
        ' ' :: ' ' :: (Kind.eof.name.toList ++ '\n' :: below) := by
  rw [Token.toList_row_eof]
  simp only [List.append_assoc, List.cons_append]

/-- The row of the end is no row of a lexeme. -/
theorem Lexeme.row_append_ne (l : Lexeme) {line line' : UInt32} {below below' : List Char} :
    (Token.eof line).row.toList ++ '\n' :: below ≠
      (l.token line').row.toList ++ '\n' :: below' := by
  intro h
  rw [Token.toList_row_eof_append, l.toList_row] at h
  obtain ⟨-, hname, -⟩ := columns_append_inj (stops_cons (by decide))
    (stops_replicate_append _ _) h
  exact l.isLexeme.ne_eof (l.kind.eq_eof_of_name hname.symm)

theorem Token.row_eof_append_inj {line line' : UInt32} {below below' : List Char}
    (h : (Token.eof line).row.toList ++ '\n' :: below =
      (Token.eof line').row.toList ++ '\n' :: below') : line = line' := by
  rw [Token.toList_row_eof_append, Token.toList_row_eof_append] at h
  obtain ⟨hline, -⟩ := columns_append_inj (stops_cons (by decide)) (stops_cons (by decide)) h
  exact UInt32.toNat_inj.mp hline

/-- **The tokens of a scan**: those of lexemes, each at some line, and then the end. -/
inductive IsTokenList : List Token → Prop
  | eof (line : UInt32) : IsTokenList [Token.eof line]
  | cons (l : Lexeme) (line : UInt32) {ts : List Token} : IsTokenList ts →
      IsTokenList (l.token line :: ts)

/-- Rows one behind the other. -/
def rowsOf (ts : List Token) : List Char := ts.flatMap fun t => t.row.toList ++ ['\n']

theorem rowsOf_cons_append (t : Token) (ts : List Token) (below : List Char) :
    rowsOf (t :: ts) ++ below = t.row.toList ++ '\n' :: (rowsOf ts ++ below) := by
  simp [rowsOf]

/-- **The rows tell all tokens**, whatever stands below them. -/
theorem IsTokenList.rows_inj {ts us : List Token} (hts : IsTokenList ts) (hus : IsTokenList us)
    {below below' : List Char} (h : rowsOf ts ++ below = rowsOf us ++ below') : ts = us := by
  induction hts generalizing us with
  | eof line =>
    rw [rowsOf_cons_append] at h
    cases hus with
    | eof line' =>
      rw [rowsOf_cons_append] at h
      rw [Token.row_eof_append_inj h]
    | cons m line' =>
      rw [rowsOf_cons_append] at h
      exact absurd h m.row_append_ne
  | cons l line _ ih =>
    rw [rowsOf_cons_append] at h
    cases hus with
    | eof line' =>
      rw [rowsOf_cons_append] at h
      exact absurd h.symm l.row_append_ne
    | cons m line' hus =>
      rw [rowsOf_cons_append] at h
      obtain ⟨htoken, hrest⟩ := Lexeme.row_append_inj h
      rw [htoken, ih hus hrest]

/-! ## The list of a source -/

/-- Every token but the last is what a lexeme gives at its line. -/
theorem exists_lexeme_token {source : String} {t : Token}
    (ht : t ∈ (visits source).filterMap Visit.token?) : ∃ l : Lexeme, t = l.token t.line := by
  obtain ⟨v, hv, ht⟩ := List.mem_filterMap.mp ht
  obtain ⟨l, hl⟩ := exists_lexeme_of_token hv ht
  obtain ⟨kind, lexeme, literal, line⟩ := t
  obtain ⟨hkind, hlexeme, hliteral⟩ : l.kind = kind ∧ String.ofList l.text = lexeme ∧
      l.literal = literal := by simpa [Lexeme.content, Token.content] using hl
  refine ⟨l, ?_⟩
  rw [Lexeme.token, hkind, hlexeme, hliteral]

theorem isTokenList_tokens (source : String) : IsTokenList (tokens source) := by
  rw [tokens_eq_visits]
  have lexemes : ∀ t ∈ (visits source).filterMap Visit.token?, ∃ l : Lexeme, t = l.token t.line :=
    fun t ht => exists_lexeme_token ht
  generalize (visits source).filterMap Visit.token? = ts at lexemes ⊢
  induction ts with
  | nil => exact .eof _
  | cons t ts ih =>
    obtain ⟨l, hl⟩ := lexemes t List.mem_cons_self
    rw [hl]
    exact .cons l _ (ih fun u hu => lexemes u (List.mem_cons_of_mem t hu))

namespace CommandLine

theorem toList_listing (ts : List Token) :
    (listing ts).toList =
      rowsOf ts ++ ("\nTotal: " ++ toString ts.length ++ " tokens\n").toList := by
  simp [listing, rowsOf, String.toList_join, List.flatMap_map]

/-- What `lex` leaves on the standard output for a source. -/
theorem stdout_lex {arguments : List String} {v : Nat} {coloured : Bool} {file source : String}
    {read : String → Except ReadFailure ByteArray} (input : ByteArray)
    (h : parse arguments = .ok (.run ⟨v, coloured⟩ (.lex file)))
    (hread : read file = .ok source.toUTF8) :
    (program arguments read input).stdout = listing (tokens source) := by
  have hlists := (lists_lexFile file source coloured v).stdout
  rw [program_eq read input h, Command.perform, hread, hlists, scan_tokens]
  simp [listing, String.append_assoc]

/-- **The list of tokens is unambiguous.** Let `lex` be called on two files, under any flags. It
writes the same to the standard output if and only if a scan of both files gives the same tokens,
each with its kind, lexeme, value and line. -/
theorem lex_stdout_eq_iff {a b : List String} {v w : Nat} {c d : Bool} {f g s t : String}
    {read read' : String → Except ReadFailure ByteArray} (input input' : ByteArray)
    (ha : parse a = .ok (.run ⟨v, c⟩ (.lex f))) (hb : parse b = .ok (.run ⟨w, d⟩ (.lex g)))
    (hs : read f = .ok s.toUTF8) (ht : read' g = .ok t.toUTF8) :
    (program a read input).stdout = (program b read' input').stdout ↔
      (scan s).tokens = (scan t).tokens := by
  rw [stdout_lex input ha hs, stdout_lex input' hb ht, scan_tokens, scan_tokens]
  constructor
  · intro h
    have hrows := congrArg String.toList h
    rw [toList_listing, toList_listing] at hrows
    exact (isTokenList_tokens s).rows_inj (isTokenList_tokens t) hrows
  · intro h
    rw [h]

/-- Between two tokens there may be anything that a scan skips, but a string keeps its blanks, also
at the end of a row. -/
theorem lex_stdout_of_same_tokens :
    parse ["lex", "a.lox"] = .ok (.run ⟨0, true⟩ (.lex "a.lox")) ∧
    (scan "a // b\n\"c \n \"").tokens = (scan "a\n\t\"c \n \"").tokens ∧
    (program ["lex", "a.lox"] (fun _ => .ok "a // b\n\"c \n \"".toUTF8) .empty).stdout =
      (program ["lex", "a.lox"] (fun _ => .ok "a\n\t\"c \n \"".toUTF8) .empty).stdout ∧
    (program ["lex", "a.lox"] (fun _ => .ok "a // b\n\"c \n \"".toUTF8) .empty).stdout ≠
      (program ["lex", "a.lox"] (fun _ => .ok "a\n\"c \n\"".toUTF8) .empty).stdout := by
  have hparse : parse ["lex", "a.lox"] = .ok (.run ⟨0, true⟩ (.lex "a.lox")) := by cbv
  have same : (scan "a // b\n\"c \n \"").tokens = (scan "a\n\t\"c \n \"").tokens := by
    decide +kernel
  have other : (scan "a // b\n\"c \n \"").tokens ≠ (scan "a\n\"c \n\"").tokens := by
    decide +kernel
  refine ⟨hparse, same, ?_, ?_⟩
  · exact (lex_stdout_eq_iff .empty .empty hparse hparse rfl rfl).mpr same
  · exact mt (lex_stdout_eq_iff .empty .empty hparse hparse rfl rfl).mp other

end CommandLine

end Lox
