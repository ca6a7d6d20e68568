import Lox.Proofs.Blocks
import Lox.Proofs.LineEnds
import Lox.Proofs.LineSplitting
import Lox.Proofs.Listing

/-!
# The lines of a list of tokens

The row of a token is meant to be one line of the list. But lexemes and values are written as they
are, and strings may hold line feeds. So a row takes one line more for each line feed in the lexeme,
and for each one in the value that is not trimmed with the end of the row. The list has one line for
each token if and only if no string of the source spans lines.

## Main definitions

* `Token.SpansLines`: the tokens of strings with line feeds
* `CommandLine.ListsLines source stdout`: the lines of a list of tokens

## Main results

* `count_row`: the line feeds of a row
* `CommandLine.pieces_rowsOf`: the lines of rows one behind the other
* `CommandLine.lex_listsLines`: the lines that `lex` writes
-/

namespace Lox

open Text (isBlank dropTrailing pieces)

/-- A string that holds a line feed. -/
def Token.SpansLines (t : Token) : Prop := t.kind = .string ∧ '\n' ∈ t.lexeme.toList

instance : DecidablePred Token.SpansLines := fun t => by
  unfold Token.SpansLines
  infer_instance

/-! ## The line feeds of a row -/

theorem Number.lineFeed_notMem_toDigits (n : Nat) : '\n' ∉ Nat.toDigits 10 n := by
  intro h
  have hdigit := Nat.isDigit_of_mem_toDigits (by decide) (by decide) h
  exact absurd hdigit (by decide)

/-- A number is written without line feeds. -/
theorem Number.Binary64.lineFeed_notMem_text (x : Number.Binary64) : '\n' ∉ x.text := by
  have hlast (places digits : Nat) : '\n' ∉ Decimal.lastDigits places digits := fun h =>
    absurd (Decimal.isDigit_of_mem_lastDigits h) (by decide)
  unfold text
  split
  · decide
  · split <;> split <;> simp [Decimal.text, hlast, lineFeed_notMem_toDigits]

theorem lineFeed_notMem_padStart (width n : Nat) :
    '\n' ∉ (Text.padStart width (toString n)).toList := by
  intro h
  rcases Text.Column.mem_set h with h | h
  · exact absurd h (by decide : '\n' ≠ ' ')
  · exact notMem_toString (by decide) n h

theorem Token.count_columns (t : Token) :
    t.columns.count '\n' = t.lexeme.toList.count '\n' := by
  have hname : '\n' ∉ (Text.padEnd 14 t.kind.name).toList := by
    intro h
    rcases Text.Column.mem_set h with h | h
    · exact absurd h (by decide)
    · exact absurd (t.kind.isNamePart_of_mem_name _ h) (by decide)
  have hline : '\n' ∉ (Text.padStart 4 (toString t.line.toNat)).toList :=
    lineFeed_notMem_padStart _ _
  rw [columns, List.count_append, List.count_eq_zero.mpr hline, List.count_cons_of_ne (by decide),
    List.count_cons_of_ne (by decide), List.count_append, List.count_eq_zero.mpr hname,
    List.count_cons_of_ne (by decide), Nat.zero_add, Nat.zero_add]

/-- A token of a list is that of a lexeme, or the end. -/
theorem IsTokenList.eq_of_mem {ts : List Token} (h : IsTokenList ts) {t : Token} (ht : t ∈ ts) :
    (∃ (l : Lexeme) (line : UInt32), t = l.token line) ∨ ∃ line, t = Token.eof line := by
  induction h with
  | eof line => exact Or.inr ⟨line, List.mem_singleton.mp ht⟩
  | cons l line _ ih =>
    rcases List.mem_cons.mp ht with rfl | ht
    · exact Or.inl ⟨l, line, rfl⟩
    · exact ih ht

/-- **The line feeds of a row** are those of the lexeme, and those of the value up to the blanks at
its end. -/
theorem count_row {source : String} {t : Token} (ht : t ∈ tokens source) :
    t.row.toList.count '\n' = t.lexeme.toList.count '\n' +
      (dropTrailing isBlank (spacedValue t.literal)).count '\n' := by
  rcases (isTokenList_tokens source).eq_of_mem ht with ⟨l, line, rfl⟩ | ⟨line, rfl⟩
  · have hl : IsLexeme (l.token line).kind (l.token line).lexeme.toList := by
      rw [Lexeme.token, String.toList_ofList]
      exact l.isLexeme
    rw [Token.toList_row_of_isLexeme hl, List.count_append, Token.count_columns]
  · have hkind : '\n' ∉ Kind.eof.name.toList := by decide
    have hline : '\n' ∉ (Text.padStart 4 (toString line.toNat)).toList :=
      lineFeed_notMem_padStart _ _
    rw [Token.toList_row_eof, List.count_append, List.count_eq_zero.mpr hline,
      List.count_cons_of_ne (by decide), List.count_cons_of_ne (by decide),
      List.count_eq_zero.mpr hkind]
    rfl

/-- Of the lexemes with a line feed all are strings. -/
theorem Lexeme.spansLines_iff (l : Lexeme) (line : UInt32) :
    (l.token line).SpansLines ↔ '\n' ∈ l.text := by
  rw [Token.SpansLines, token, String.toList_ofList, and_iff_right_iff_imp]
  intro h
  by_contra hkind
  exact (l.isLexeme.fits endsLexeme_nil).lineFeed_notMem hkind h

/-- **The line feeds of a value come from its lexeme.** A number is written without any. -/
theorem Lexeme.lineFeed_notMem_spacedValue (l : Lexeme) (h : '\n' ∉ l.text) :
    '\n' ∉ spacedValue l.literal := by
  obtain ⟨kind, text, hl⟩ := l
  cases kind with
  | number =>
    obtain ⟨d, hd⟩ := hl.isNumber.exists_parse?
    simpa [literal, Literal.readNumber?, hd, spacedValue, Literal.text] using
      Number.Binary64.lineFeed_notMem_text _
  | string =>
    intro hmem
    have hbody : '\n' ∈ text.tail.dropLast := by
      simpa [literal, spacedValue, Literal.readString, Literal.text] using hmem
    exact h (List.mem_of_mem_tail (List.mem_of_mem_dropLast hbody))
  | _ => exact List.not_mem_nil

/-- **A row is one line** unless it is that of a string that spans lines. -/
theorem count_row_eq_zero_iff {source : String} {t : Token} (ht : t ∈ tokens source) :
    t.row.toList.count '\n' = 0 ↔ ¬ t.SpansLines := by
  rw [count_row ht]
  rcases (isTokenList_tokens source).eq_of_mem ht with ⟨l, line, rfl⟩ | ⟨line, rfl⟩
  · rw [l.spansLines_iff, Token.lexeme, Lexeme.token, String.toList_ofList, Nat.add_eq_zero_iff,
      List.count_eq_zero, List.count_eq_zero, and_iff_left_iff_imp]
    intro h hmem
    obtain ⟨tail, hvalue, -⟩ := Text.exists_eq_dropTrailing_append isBlank (spacedValue l.literal)
    exact l.lineFeed_notMem_spacedValue h (hvalue ▸ List.mem_append_left tail hmem)
  · exact iff_of_true rfl fun h => Kind.noConfusion h.1

namespace CommandLine

/-! ## The lines of the list -/

/-- **The lines of rows one behind the other**, before the lines below them. -/
theorem pieces_rowsOf (ts : List Token) (below : List Char) :
    pieces '\n' (rowsOf ts ++ below) =
      ts.flatMap (fun t => pieces '\n' t.row.toList) ++ pieces '\n' below := by
  induction ts with
  | nil => rfl
  | cons t ts ih =>
    rw [rowsOf_cons_append, Text.pieces_append_sep, ih, List.flatMap_cons, List.append_assoc]

/-- The line with the number of the tokens. -/
def totalLine (n : Nat) : List Char := ("Total: " ++ toString n ++ " tokens").toList

theorem lineFeed_notMem_totalLine (n : Nat) : '\n' ∉ totalLine n := by
  rw [totalLine]
  exact notMem_append (notMem_append (by decide) (notMem_toString (by decide) n)) (by decide)

/-- **The lines of a list** are those of the rows, an empty one, and the number of the tokens. -/
theorem pieces_listing (ts : List Token) :
    pieces '\n' (listing ts).toList =
      ts.flatMap (fun t => pieces '\n' t.row.toList) ++ [[], totalLine ts.length, []] := by
  have htotal : ("\nTotal: " ++ toString ts.length ++ " tokens\n").toList =
      '\n' :: (totalLine ts.length ++ '\n' :: []) := by
    simp [totalLine]
  rw [toList_listing, pieces_rowsOf, htotal, Text.pieces_cons_self,
    Text.pieces_append_cons (lineFeed_notMem_totalLine _)]
  rfl

/-- Parts that are not empty are as many as their elements if and only if each has one. -/
theorem length_flatMap_eq_iff {α β : Type} {f : α → List β} (hf : ∀ a, f a ≠ []) (as : List α) :
    as.length ≤ (as.flatMap f).length ∧
      ((as.flatMap f).length = as.length ↔ ∀ a ∈ as, (f a).length = 1) := by
  induction as with
  | nil => simp
  | cons a as ih =>
    have ha : 0 < (f a).length := List.length_pos_iff.mpr (hf a)
    rw [List.flatMap_cons, List.length_append, List.length_cons, List.forall_mem_cons, ← ih.2]
    have := ih.1
    omega

/-- **The lines of a list of tokens.** The lines above the empty one are those of the rows. A row
takes a line more for each line feed of its lexeme, and for each one of its value up to the blanks
at the end. It is one line unless the token is a string that spans lines. So there are as many lines
above the empty one as there are tokens if and only if there is no such string, and then the lines
are the rows. -/
structure ListsLines (source stdout : String) : Prop where
  lines : stdout.toList.splitOn '\n' =
    (scan source).tokens.flatMap (fun t => t.row.toList.splitOn '\n') ++
      [[], totalLine (scan source).tokens.length, []]
  taken : ∀ t ∈ (scan source).tokens, (t.row.toList.splitOn '\n').length =
    1 + t.lexeme.toList.count '\n' + (dropTrailing isBlank (spacedValue t.literal)).count '\n'
  notMem_row_iff : ∀ t ∈ (scan source).tokens, '\n' ∉ t.row.toList ↔ ¬ t.SpansLines
  length_iff : (stdout.toList.splitOn '\n').length = (scan source).tokens.length + 3 ↔
    ∀ t ∈ (scan source).tokens, ¬ t.SpansLines
  rows : (∀ t ∈ (scan source).tokens, ¬ t.SpansLines) → stdout.toList.splitOn '\n' =
    (scan source).tokens.map (fun t => t.row.toList) ++
      [[], totalLine (scan source).tokens.length, []]

theorem listsLines_listing (source : String) : ListsLines source (listing (tokens source)) := by
  have hlines := pieces_listing (tokens source)
  have hone {t : Token} (ht : t ∈ tokens source) :
      (pieces '\n' t.row.toList).length = 1 ↔ ¬ t.SpansLines := by
    rw [Text.length_pieces, Nat.add_eq_right, count_row_eq_zero_iff ht]
  have hrow {t : Token} (ht : t ∈ tokens source) : '\n' ∉ t.row.toList ↔ ¬ t.SpansLines := by
    rw [← List.count_eq_zero, count_row_eq_zero_iff ht]
  refine ⟨?_, ?_, ?_, ?_, ?_⟩ <;> simp only [scan_tokens, ← pieces_eq_splitOn]
  · exact hlines
  · intro t ht
    rw [Text.length_pieces, count_row ht]
    omega
  · exact fun t ht => hrow ht
  · have hlength := (length_flatMap_eq_iff (fun t : Token => Text.pieces_ne_nil '\n' t.row.toList)
      (tokens source)).2
    rw [hlines, List.length_append, List.length_cons, List.length_cons, List.length_singleton,
      Nat.add_right_cancel_iff, hlength]
    exact forall₂_congr fun t ht => hone ht
  · intro h
    have hrows : (tokens source).flatMap (fun t => pieces '\n' t.row.toList) =
        (tokens source).flatMap fun t => [t.row.toList] :=
      List.flatMap_congr fun t ht => Text.pieces_of_notMem ((hrow ht).mpr (h t ht))
    rw [hlines, hrows, ← List.map_eq_flatMap]

/-- **The lines that `lex` writes.** -/
theorem lex_listsLines {arguments : List String} {v : Nat} {coloured : Bool} {file source : String}
    {read : String → Except ReadFailure ByteArray} (input : ByteArray)
    (h : parse arguments = .ok (.run ⟨v, coloured⟩ (.lex file)))
    (hread : read file = .ok source.toUTF8) :
    ListsLines source (program arguments read input).stdout := by
  rw [stdout_lex input h hread]
  exact listsLines_listing source

/-- Three tokens on five lines. -/
theorem lex_listsLines_of_string :
    parse ["lex", "a.lox"] = .ok (.run ⟨0, true⟩ (.lex "a.lox")) ∧
    ListsLines "a\n\"b\n c\""
      (program ["lex", "a.lox"] (fun _ => .ok "a\n\"b\n c\"".toUTF8) .empty).stdout := by
  have hparse : parse ["lex", "a.lox"] = .ok (.run ⟨0, true⟩ (.lex "a.lox")) := by cbv
  exact ⟨hparse, lex_listsLines .empty hparse rfl⟩

/-- **Not every row is one line.** A string of a line feed takes two, and would take a third one if
its value were not trimmed. -/
theorem exists_row_of_two_lines :
    (program ["lex", "a.lox"] (fun _ => .ok "\"\n\"".toUTF8) .empty).stdout =
      "   1  STRING         \"\n\"\n   2  EOF\n\nTotal: 2 tokens\n" ∧
    ¬ ∀ source : String, ∀ t ∈ (scan source).tokens, '\n' ∉ t.row.toList := by
  have hparse : parse ["lex", "a.lox"] = .ok (.run ⟨0, true⟩ (.lex "a.lox")) := by cbv
  have htokens : tokens "\"\n\"" =
      [⟨.string, "\"\n\"", some (.string "\n"), 1⟩, Token.eof 2] := by decide +kernel
  constructor
  · rw [stdout_lex .empty hparse rfl, htokens]
    decide +kernel
  · intro h
    refine h "\"\n\"" ⟨.string, "\"\n\"", some (.string "\n"), 1⟩ ?_ (by decide +kernel)
    rw [scan_tokens, htokens]
    exact List.mem_cons_self

end CommandLine

end Lox
