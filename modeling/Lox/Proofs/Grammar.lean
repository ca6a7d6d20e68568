import Lox.Segment
import Lox.Token.Basic

/-!
# The grammar of lexemes

Which texts are lexemes, and of which kind, said without a scan. A lexeme is a mark or an operator,
a number, a quoted text or a word, and the first character tells which of the four. The words with
a spelling in the table of reserved words are of the kind of that word, all others are identifiers.

## Main definitions

* `symbols`: the marks and operators with their kinds
* `IsNumber`, `IsQuoted`, `IsWord`: the texts of numbers, strings and words
* `IsWordOf kind text`: the kind of a word
* `IsLexeme kind text`: the texts of each kind
* `Kind.Admits text kind`: the same by cases of the kind
* `IsLongest rest kind text`: a text is the longest lexeme at the beginning of another one

## Main results

* `IsLexeme.number_of_isDigit`, `IsLexeme.string_of_quote`, `IsLexeme.word_of_isLetter`,
  `IsLexeme.symbol_of_other`: the first character tells what a lexeme is
* `IsLexeme.admits`: the kind tells what the text of a lexeme is
* `IsLexeme.kind_unique`: a text is of one kind at most
* `isLexeme_wordKind`: the kind of a word is the one that a scan gives it
* `IsNumber.exists_parse?`: the text of a number can be read
-/

namespace Lox

/-! ## Characters -/

/-- The digits. -/
def IsDigit (c : Char) : Prop := '0' ≤ c ∧ c ≤ '9'

/-- The letters; the underscore is one of them. -/
def IsLetter (c : Char) : Prop := ('A' ≤ c ∧ c ≤ 'Z') ∨ ('a' ≤ c ∧ c ≤ 'z') ∨ c = '_'

instance : DecidablePred IsDigit := fun c => inferInstanceAs (Decidable ('0' ≤ c ∧ c ≤ '9'))

instance : DecidablePred IsLetter := fun c =>
  inferInstanceAs (Decidable (('A' ≤ c ∧ c ≤ 'Z') ∨ ('a' ≤ c ∧ c ≤ 'z') ∨ c = '_'))

theorem isDigit_iff {c : Char} : c.isDigit = true ↔ IsDigit c := by
  simp [Char.isDigit, IsDigit, Char.le_def]

theorem isUpper_iff {c : Char} : c.isUpper = true ↔ 'A' ≤ c ∧ c ≤ 'Z' := decide_eq_true_iff

theorem isLower_iff {c : Char} : c.isLower = true ↔ 'a' ≤ c ∧ c ≤ 'z' := by
  show (decide ('a' ≤ c) && decide (c ≤ 'z')) = true ↔ _
  rw [Bool.and_eq_true, decide_eq_true_iff, decide_eq_true_iff]

theorem isWordStart_iff {c : Char} : isWordStart c = true ↔ IsLetter c := by
  show ((c.isUpper || c.isLower) || decide (c = '_')) = true ↔ _
  rw [Bool.or_eq_true, Bool.or_eq_true, isUpper_iff, isLower_iff, decide_eq_true_iff, or_assoc]
  exact Iff.rfl

theorem isWordPart_iff {c : Char} : isWordPart c = true ↔ IsLetter c ∨ IsDigit c := by
  rw [← isDigit_iff, ← isWordStart_iff]
  simp [isWordPart, isWordStart, Char.isAlphanum, or_right_comm]

/-! ## Lexemes -/

/-- The marks and operators with their kinds. -/
def symbols : List (List Char × Kind) :=
  [(['('], .leftParen), ([')'], .rightParen), (['{'], .leftBrace), (['}'], .rightBrace),
   ([','], .comma), (['.'], .dot), (['-'], .minus), (['+'], .plus), ([';'], .semicolon),
   (['/'], .slash), (['*'], .star),
   (['!'], .bang), (['!', '='], .bangEqual), (['='], .equal), (['=', '='], .equalEqual),
   (['<'], .less), (['<', '='], .lessEqual), (['>'], .greater), (['>', '='], .greaterEqual)]

/-- The text of a number: digits, or digits on both sides of a point. -/
inductive IsNumber : List Char → Prop
  | whole {ds : List Char} : ds ≠ [] → (∀ d ∈ ds, IsDigit d) → IsNumber ds
  | fraction {ds es : List Char} : ds ≠ [] → es ≠ [] → (∀ d ∈ ds, IsDigit d) →
      (∀ e ∈ es, IsDigit e) → IsNumber (ds ++ '.' :: es)

/-- The text of a string: anything but quotation marks, between two of them. -/
inductive IsQuoted : List Char → Prop
  | intro {body : List Char} : '"' ∉ body → IsQuoted ('"' :: body ++ ['"'])

/-- The text of a word: a letter, then letters and digits. -/
inductive IsWord : List Char → Prop
  | intro {c : Char} {cs : List Char} : IsLetter c → (∀ d ∈ cs, IsLetter d ∨ IsDigit d) →
      IsWord (c :: cs)

/-- **The lexemes of each kind.** -/
inductive IsLexeme : Kind → List Char → Prop
  | symbol {kind : Kind} {text : List Char} : (text, kind) ∈ symbols → IsLexeme kind text
  | number {text : List Char} : IsNumber text → IsLexeme .number text
  | string {text : List Char} : IsQuoted text → IsLexeme .string text
  | identifier {text : List Char} : IsWord text → (∀ w : Keyword, w.spelling.toList ≠ text) →
      IsLexeme .identifier text
  | keyword (w : Keyword) : IsLexeme (.keyword w) w.spelling.toList

/-- The texts that lexemes of a kind can have. The end of a source is no lexeme. -/
def Kind.Admits (text : List Char) : Kind → Prop
  | .number => IsNumber text
  | .string => IsQuoted text
  | .identifier => IsWord text ∧ ∀ w : Keyword, w.spelling.toList ≠ text
  | .keyword w => text = w.spelling.toList
  | .eof => False
  | kind => (text, kind) ∈ symbols

/-- **The longest lexeme** at the beginning of a text. -/
structure IsLongest (rest : List Char) (kind : Kind) (text : List Char) : Prop where
  isLexeme : IsLexeme kind text
  begins : text <+: rest
  longest : ∀ {other : Kind} {longer : List Char}, IsLexeme other longer → longer <+: rest →
    longer.length ≤ text.length

/-- The kind of a word: a reserved word by its spelling, any other word an identifier. -/
def IsWordOf (kind : Kind) (text : List Char) : Prop :=
  (kind = .identifier ∧ ∀ w : Keyword, w.spelling.toList ≠ text) ∨
    ∃ w : Keyword, kind = .keyword w ∧ w.spelling.toList = text

theorem IsWordOf.unique {kind other : Kind} {text : List Char} (h : IsWordOf kind text)
    (h' : IsWordOf other text) : kind = other := by
  rcases h with ⟨rfl, hr⟩ | ⟨w, rfl, hw⟩ <;> rcases h' with ⟨rfl, hr'⟩ | ⟨w', rfl, hw'⟩
  · rfl
  · exact absurd hw' (hr w')
  · exact absurd hw (hr' w)
  · rw [Keyword.spelling_injective (String.toList_injective (hw.trans hw'.symm))]

theorem isWord_of_all {c : Char} {cs : List Char} (hc : IsLetter c)
    (hcs : cs.all isWordPart = true) : IsWord (c :: cs) :=
  .intro hc fun d hd => isWordPart_iff.mp (List.all_eq_true.mp hcs d hd)

theorem isWord_spelling (w : Keyword) : IsWord w.spelling.toList := by
  cases w <;> exact isWord_of_all (by decide) (by decide)

theorem mem_symbols_ne_nil : ∀ entry ∈ symbols, entry.1 ≠ [] := by decide

/-- What holds of the first characters of all marks and operators can be read off the table. -/
theorem forall_head_symbols {p : List Char × Kind → Char → Prop}
    [∀ entry c, Decidable (p entry c)]
    (h : symbols.all (fun entry => entry.1.head?.all fun c => p entry c) = true) :
    ∀ entry ∈ symbols, ∀ c ∈ entry.1.head?, p entry c := by
  intro entry hentry c hc
  have hhead := (Option.all_eq_true _ _).mp (List.all_eq_true.mp h entry hentry)
  exact of_decide_eq_true (hhead c hc)

/-- A mark or an operator begins with no digit, letter or quotation mark. -/
theorem head_of_mem_symbols : ∀ entry ∈ symbols, ∀ c ∈ entry.1.head?,
    ¬ IsDigit c ∧ ¬ IsLetter c ∧ c ≠ '"' := forall_head_symbols (by decide)

theorem IsNumber.isDigit_head {c : Char} {cs : List Char} (h : IsNumber (c :: cs)) :
    IsDigit c := by
  generalize ht : c :: cs = text at h
  cases h with
  | whole hne hds => exact hds c (by simp [← ht])
  | fraction hne _ hds _ =>
    obtain ⟨d, ds, rfl⟩ := List.exists_cons_of_ne_nil hne
    obtain ⟨rfl, -⟩ := List.cons.inj ht
    exact hds c (by simp)

theorem IsLetter.not_isDigit {c : Char} (h : IsLetter c) : ¬ IsDigit c := by
  simp only [IsLetter, IsDigit, Char.le_def, UInt32.le_iff_toNat_le] at *
  rintro ⟨-, hd⟩
  rcases h with ⟨hl, -⟩ | ⟨hl, -⟩ | rfl
  · exact absurd (Nat.le_trans hl hd) (by decide)
  · exact absurd (Nat.le_trans hl hd) (by decide)
  · exact absurd hd (by decide)

namespace IsLexeme

variable {kind other : Kind} {text cs : List Char} {c : Char}

theorem ne_nil (h : IsLexeme kind text) : text ≠ [] := by
  cases h with
  | symbol h => exact mem_symbols_ne_nil _ h
  | number h =>
    cases h with
    | whole hne _ => exact hne
    | fraction => simp
  | string h => cases h; simp
  | identifier h _ => cases h; simp
  | keyword w => cases w <;> decide

/-- **The first character of a lexeme tells what it is.** The four cases exclude each other. -/
theorem head_cases (h : IsLexeme kind (c :: cs)) :
    (IsDigit c ∧ kind = .number ∧ IsNumber (c :: cs)) ∨
    (c = '"' ∧ kind = .string ∧ ∃ body, '"' ∉ body ∧ cs = body ++ ['"']) ∨
    (IsLetter c ∧ IsWord (c :: cs) ∧ IsWordOf kind (c :: cs)) ∨
    ((¬ IsDigit c ∧ ¬ IsLetter c ∧ c ≠ '"') ∧ (c :: cs, kind) ∈ symbols) := by
  generalize ht : c :: cs = text at h
  cases h with
  | symbol h =>
    subst ht
    exact .inr (.inr (.inr ⟨head_of_mem_symbols _ h c rfl, h⟩))
  | number h =>
    subst ht
    exact .inl ⟨h.isDigit_head, rfl, h⟩
  | string h =>
    cases h with
    | intro hb =>
      obtain ⟨rfl, rfl⟩ := List.cons.inj ht
      exact .inr (.inl ⟨rfl, rfl, _, hb, rfl⟩)
  | identifier h hr =>
    subst ht
    cases h with
    | intro hl hp => exact .inr (.inr (.inl ⟨hl, .intro hl hp, .inl ⟨rfl, hr⟩⟩))
  | keyword w =>
    have h := isWord_spelling w
    rw [← ht] at h
    cases h with
    | intro hl hp =>
      exact .inr (.inr (.inl ⟨hl, ht ▸ .intro hl hp, .inr ⟨w, rfl, rfl⟩⟩))

/-- What begins with a digit is a number. -/
theorem number_of_isDigit (h : IsLexeme kind (c :: cs)) (hc : IsDigit c) :
    kind = .number ∧ IsNumber (c :: cs) := by
  rcases h.head_cases with ⟨-, h⟩ | ⟨rfl, -⟩ | ⟨hl, -⟩ | ⟨⟨hd, -⟩, -⟩
  · exact h
  · exact absurd hc (by decide)
  · exact absurd hc hl.not_isDigit
  · exact absurd hc hd

/-- What begins with a quotation mark is a string. -/
theorem string_of_quote (h : IsLexeme kind ('"' :: cs)) :
    kind = .string ∧ ∃ body, '"' ∉ body ∧ cs = body ++ ['"'] := by
  rcases h.head_cases with ⟨hd, -⟩ | ⟨-, h⟩ | ⟨hl, -⟩ | ⟨⟨-, -, hq⟩, -⟩
  · exact absurd hd (by decide)
  · exact h
  · exact absurd hl (by decide)
  · exact absurd rfl hq

/-- What begins with a letter is a word. -/
theorem word_of_isLetter (h : IsLexeme kind (c :: cs)) (hc : IsLetter c) :
    IsWord (c :: cs) ∧ IsWordOf kind (c :: cs) := by
  rcases h.head_cases with ⟨hd, -⟩ | ⟨rfl, -⟩ | ⟨-, h⟩ | ⟨⟨-, hl, -⟩, -⟩
  · exact absurd hd hc.not_isDigit
  · exact absurd hc (by decide)
  · exact h
  · exact absurd hc hl

/-- What begins with anything else is a mark or an operator. -/
theorem symbol_of_other (h : IsLexeme kind (c :: cs)) (hd : ¬ IsDigit c) (hl : ¬ IsLetter c)
    (hq : c ≠ '"') : (c :: cs, kind) ∈ symbols := by
  rcases h.head_cases with ⟨hd', -⟩ | ⟨hq', -⟩ | ⟨hl', -⟩ | ⟨-, h⟩
  · exact absurd hd' hd
  · exact absurd hq' hq
  · exact absurd hl' hl
  · exact h

theorem kind_eq_of_mem_symbols :
    ∀ entry ∈ symbols, ∀ entry' ∈ symbols, entry.1 = entry'.1 → entry.2 = entry'.2 := by decide

/-- **A text is of one kind at most.** -/
theorem kind_unique (h : IsLexeme kind text) (h' : IsLexeme other text) : kind = other := by
  obtain ⟨c, cs, rfl⟩ := List.exists_cons_of_ne_nil h.ne_nil
  rcases h.head_cases with ⟨hd, hk, -⟩ | ⟨rfl, hk, -⟩ | ⟨hl, -, hk⟩ | ⟨⟨hd, hl, hq⟩, hk⟩
  · exact hk.trans (h'.number_of_isDigit hd).1.symm
  · exact hk.trans h'.string_of_quote.1.symm
  · exact hk.unique (h'.word_of_isLetter hl).2
  · exact kind_eq_of_mem_symbols _ hk _ (h'.symbol_of_other hd hl hq) rfl

/-- **The kind of a lexeme tells what its text is.** -/
theorem admits (h : IsLexeme kind text) : kind.Admits text := by
  cases h with
  | symbol h => cases kind <;> first | exact h | simp [symbols] at h
  | number h => exact h
  | string h => exact h
  | identifier h hr => exact ⟨h, hr⟩
  | keyword w => rfl

theorem ne_eof (h : IsLexeme kind text) : kind ≠ .eof := by
  rintro rfl
  exact h.admits

theorem isNumber (h : IsLexeme .number text) : IsNumber text := h.admits

theorem isQuoted (h : IsLexeme .string text) : IsQuoted text := h.admits

end IsLexeme

/-- **A word is a lexeme of the kind that a scan gives it.** -/
theorem isLexeme_wordKind {text : List Char} (h : IsWord text) :
    IsLexeme (Segment.wordKind text) text := by
  unfold Segment.wordKind
  cases hw : Keyword.ofSpelling? (String.ofList text) with
  | none =>
    apply IsLexeme.identifier h
    intro w hs
    have hsome : Keyword.ofSpelling? (String.ofList text) = some w := by
      rw [Keyword.ofSpelling?_eq_some_iff, ← hs, String.ofList_toList]
    simp [hw] at hsome
  | some w =>
    have hs : w.spelling.toList = text := by
      rw [Keyword.ofSpelling?_eq_some_iff.mp hw, String.toList_ofList]
    exact hs ▸ IsLexeme.keyword w

/-! ## Numbers can be read -/

theorem forall_isDigit_iff {ds : List Char} :
    (∀ d ∈ ds, d.isDigit = true) ↔ ∀ d ∈ ds, IsDigit d :=
  forall₂_congr fun _ _ => isDigit_iff

section Numbers

open Number

variable {ds es : List Char}

theorem parse?_whole (hne : ds ≠ []) (hds : ∀ d ∈ ds, d.isDigit = true) :
    Decimal.parse? ds = some ⟨Nat.ofDigitChars 10 ds 0, 0⟩ := by
  have ht : ds.takeWhile Char.isDigit = ds := by
    simpa using @List.takeWhile_append_of_pos _ _ ds [] hds
  have hd : ds.dropWhile Char.isDigit = [] := by
    simpa using @List.dropWhile_append_of_pos _ _ ds [] hds
  obtain ⟨d, ds, rfl⟩ := List.exists_cons_of_ne_nil hne
  rw [Decimal.parse?, ht, hd]

theorem parse?_fraction (hne : ds ≠ []) (hne' : es ≠ []) (hds : ∀ d ∈ ds, d.isDigit = true)
    (hes : ∀ e ∈ es, e.isDigit = true) :
    Decimal.parse? (ds ++ '.' :: es) =
      some ⟨Nat.ofDigitChars 10 (ds ++ es) 0, es.length⟩ := by
  have hpoint : ¬ Char.isDigit '.' = true := by decide
  have ht : (ds ++ '.' :: es).takeWhile Char.isDigit = ds := by
    rw [List.takeWhile_append_of_pos hds, List.takeWhile_cons_of_neg hpoint, List.append_nil]
  have hd : (ds ++ '.' :: es).dropWhile Char.isDigit = '.' :: es := by
    rw [List.dropWhile_append_of_pos hds, List.dropWhile_cons_of_neg hpoint]
  have hall : es.all Char.isDigit = true := List.all_eq_true.mpr hes
  obtain ⟨d, ds, rfl⟩ := List.exists_cons_of_ne_nil hne
  obtain ⟨e, es, rfl⟩ := List.exists_cons_of_ne_nil hne'
  rw [Decimal.parse?, ht, hd]
  exact if_pos hall

/-- **The text of a number can be read.** -/
theorem IsNumber.exists_parse? {text : List Char} (h : IsNumber text) :
    ∃ d, Decimal.parse? text = some d := by
  cases h with
  | whole hne hds => exact ⟨_, parse?_whole hne (forall_isDigit_iff.mpr hds)⟩
  | fraction hne hne' hds hes =>
    exact ⟨_, parse?_fraction hne hne' (forall_isDigit_iff.mpr hds) (forall_isDigit_iff.mpr hes)⟩

end Numbers

end Lox
