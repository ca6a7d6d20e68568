import Lox.Token.Kind

/-!
# Segments of a source

A source is cut into segments from left to right: blanks, comments, lexemes of tokens, and the
characters that belong to neither. Each cut takes the longest lexeme; a lexeme depends on the
characters behind it only as far as these could extend it.

## Main definitions

* `Segment`, `Segment.text`: the segments and the text of one
* `Segment.first`: the segment at a character, and the rest of the source
* `Segment.cut`: all segments of a source

## Main results

* `Segment.first_append`: the first segment and the rest are the whole
* `Segment.flatMap_text_cut`: the segments are the whole source
-/

namespace Lox

/-- The characters that are skipped between lexemes. -/
def isSpace (c : Char) : Bool := c = ' ' || c = '\t' || c = '\r' || c = '\n'

/-- The characters that begin a word: the ASCII letters and the underscore. -/
def isWordStart (c : Char) : Bool := c.isAlpha || c = '_'

/-- The characters that go on with a word. -/
def isWordPart (c : Char) : Bool := c.isAlphanum || c = '_'

/-- A piece of a source. -/
inductive Segment
  /-- One of the characters skipped between lexemes. -/
  | space (c : Char)
  /-- A comment, by what follows the slashes. -/
  | comment (body : List Char)
  /-- A lexeme of a token. -/
  | lexeme (kind : Kind) (chars : List Char)
  /-- A character that begins no lexeme. -/
  | stray (c : Char)
  /-- A string without end, by what follows its quotation mark. -/
  | unclosed (body : List Char)
  deriving DecidableEq

namespace Segment

/-- The text of a segment in the source. -/
def text : Segment → List Char
  | space c => [c]
  | comment body => '/' :: '/' :: body
  | lexeme _ chars => chars
  | stray c => [c]
  | unclosed body => '"' :: body

/-- A slash: a comment up to the end of the line if another slash follows. -/
def slash : List Char → Segment × List Char
  | '/' :: rest => (comment (rest.takeWhile (· ≠ '\n')), rest.dropWhile (· ≠ '\n'))
  | rest => (lexeme .slash ['/'], rest)

/-- A quotation mark: a string up to the next one. -/
def quotation (rest : List Char) : Segment × List Char :=
  match rest.dropWhile (· ≠ '"') with
  | [] => (unclosed rest, [])
  | _ :: after => (lexeme .string ('"' :: rest.takeWhile (· ≠ '"') ++ ['"']), after)

/-- A digit: the digits that follow, and a point with the digits behind it if there are any. -/
def number (c : Char) (rest : List Char) : Segment × List Char :=
  let whole := c :: rest.takeWhile Char.isDigit
  match rest.dropWhile Char.isDigit with
  | '.' :: d :: after =>
    if d.isDigit then
      (lexeme .number (whole ++ '.' :: d :: after.takeWhile Char.isDigit),
        after.dropWhile Char.isDigit)
    else (lexeme .number whole, '.' :: d :: after)
  | after => (lexeme .number whole, after)

/-- The kind of a word: reserved or an identifier. -/
def wordKind (chars : List Char) : Kind :=
  ((Keyword.ofSpelling? (String.ofList chars)).map Kind.keyword).getD .identifier

/-- A letter: the whole word. -/
def word (c : Char) (rest : List Char) : Segment × List Char :=
  let chars := c :: rest.takeWhile isWordPart
  (lexeme (wordKind chars) chars, rest.dropWhile isWordPart)

/-- An operator, joined with a `=` behind it. -/
def operator (alone joined : Kind) (c : Char) : List Char → Segment × List Char
  | '=' :: rest => (lexeme joined [c, '='], rest)
  | rest => (lexeme alone [c], rest)

/-- **The segment that begins with a character**, and what is left of the source after it. -/
def first (c : Char) (rest : List Char) : Segment × List Char :=
  if isSpace c then (space c, rest)
  else if c = '/' then slash rest
  else if c = '"' then quotation rest
  else if c.isDigit then number c rest
  else if isWordStart c then word c rest
  else match Kind.ofMark? c, Kind.ofOperator? c with
    | some kind, _ => (lexeme kind [c], rest)
    | none, some (alone, joined) => operator alone joined c rest
    | none, none => (stray c, rest)

/-! ## The first segment and the rest -/

theorem slash_append (rest : List Char) :
    (slash rest).1.text ++ (slash rest).2 = '/' :: rest := by
  unfold slash
  split <;> simp [text]

theorem quotation_append (rest : List Char) :
    (quotation rest).1.text ++ (quotation rest).2 = '"' :: rest := by
  unfold quotation
  split
  · simp [text]
  · next d after h =>
    have hd : d = '"' := by
      have := List.head?_dropWhile_not (· ≠ '"') rest
      rw [h] at this
      simpa using this
    have := List.takeWhile_append_dropWhile (p := (· ≠ '"')) (l := rest)
    rw [h, hd] at this
    simpa [text] using this

theorem number_append (c : Char) (rest : List Char) :
    (number c rest).1.text ++ (number c rest).2 = c :: rest := by
  have whole := List.takeWhile_append_dropWhile (p := Char.isDigit) (l := rest)
  unfold number
  split
  · next d after h =>
    rw [h] at whole
    split <;> simp [text, whole]
  · simp [text, whole]

theorem word_append (c : Char) (rest : List Char) :
    (word c rest).1.text ++ (word c rest).2 = c :: rest := by
  simp [word, text]

theorem operator_append (alone joined : Kind) (c : Char) (rest : List Char) :
    (operator alone joined c rest).1.text ++ (operator alone joined c rest).2 = c :: rest := by
  unfold operator
  split <;> simp [text]

/-- **The first segment and the rest are the whole.** -/
theorem first_append (c : Char) (rest : List Char) :
    (first c rest).1.text ++ (first c rest).2 = c :: rest := by
  unfold first
  split
  · simp [text]
  split
  · next h => rw [slash_append, h]
  split
  · next h => rw [quotation_append, h]
  split
  · exact number_append c rest
  split
  · exact word_append c rest
  split
  · simp [text]
  · exact operator_append _ _ c rest
  · simp [text]

theorem text_first_ne_nil (c : Char) (rest : List Char) : (first c rest).1.text ≠ [] := by
  unfold first slash quotation number word operator
  split
  · simp [text]
  split
  · split <;> simp [text]
  split
  · split <;> simp [text]
  split
  · split
    · split <;> simp [text]
    · simp [text]
  split
  · simp [text]
  split
  · simp [text]
  · split <;> simp [text]
  · simp [text]

theorem length_first_lt (c : Char) (rest : List Char) :
    (first c rest).2.length < (c :: rest).length := by
  have := congrArg List.length (first_append c rest)
  have := List.length_pos_iff.mpr (text_first_ne_nil c rest)
  simp only [List.length_append] at *
  omega

/-! ## The segments of a source -/

/-- **The segments of a source**, in order. -/
def cut : List Char → List Segment
  | [] => []
  | c :: rest => (first c rest).1 :: cut (first c rest).2
termination_by source => source.length
decreasing_by exact length_first_lt c rest

@[simp] theorem cut_nil : cut [] = [] := by rw [cut]

theorem cut_cons (c : Char) (rest : List Char) :
    cut (c :: rest) = (first c rest).1 :: cut (first c rest).2 := by rw [cut]

/-- **The segments are the whole source.** -/
theorem flatMap_text_cut (source : List Char) : (cut source).flatMap text = source := by
  fun_induction cut source with
  | case1 => rfl
  | case2 c rest ih => rw [List.flatMap_cons, ih, first_append]

theorem text_ne_nil_of_mem_cut {source : List Char} {s : Segment} (h : s ∈ cut source) :
    s.text ≠ [] := by
  fun_induction cut source with
  | case1 => simp at h
  | case2 c rest ih =>
    rcases List.mem_cons.mp h with rfl | h
    · exact text_first_ne_nil c rest
    · exact ih h

end Segment

end Lox
