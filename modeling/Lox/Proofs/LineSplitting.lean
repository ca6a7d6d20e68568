import Lox.Proofs.LineIndex

/-!
# The index of a source is a list of its lines

The index of a source knows where the lines begin, in bytes, and cuts a line out between two
offsets. What it gives for a number is the piece with this number, if the source is just split at its
line feeds. The cut cannot fail, since no offset lies behind the end of the source, in disorder, or
between the bytes of a character.

## Main definitions

* `Source.IsIndexed`: an index that gives the lines of its source

## Main results

* `pieces_eq_splitOn`: the pieces are those of a split
* `Source.isValid_span?`: a line is cut out between two characters
* `Source.isIndexed_ofText`: the index of a text gives its lines
-/

namespace Lox

open Text

/-! ## Offsets in order -/

/-- **The pieces between separators** are those of a split. -/
theorem pieces_eq_splitOn (sep : Char) (text : List Char) : pieces sep text = text.splitOn sep := by
  induction text with
  | nil => rfl
  | cons c text ih =>
    rw [List.splitOn_eq_splitOnP, List.splitOnP_cons_eq_if_modifyHead,
      ← List.splitOn_eq_splitOnP, ← ih]
    by_cases hc : c = sep
    · rw [if_pos (beq_iff_eq.mpr hc), hc, pieces_cons_self]
    · obtain ⟨piece, more, hp, hp'⟩ := exists_pieces_cons hc text
      rw [if_neg (mt beq_iff_eq.mp hc), hp, hp', List.modifyHead_cons]

theorem le_of_mem_offsets {offset start : Nat} {ps : List (List Char)}
    (h : start ∈ offsets offset ps) : offset ≤ start := by
  induction ps generalizing offset with
  | nil => cases h
  | cons p ps ih =>
    rcases List.mem_cons.mp h with rfl | h
    · exact Nat.le_refl _
    · exact Nat.le_trans (by omega) (ih h)

/-- **A piece begins behind all earlier ones**, since a line feed stands between them. -/
theorem pairwise_offsets (offset : Nat) (ps : List (List Char)) :
    (offsets offset ps).Pairwise (· < ·) := by
  induction ps generalizing offset with
  | nil => exact .nil
  | cons p ps ih =>
    refine List.pairwise_cons.mpr ⟨fun start hstart => ?_, ih _⟩
    have hle := le_of_mem_offsets hstart
    omega

/-- No piece begins behind the end of the text. -/
theorem le_byteLength_of_mem_offsets {text : List Char} {start : Nat}
    (h : start ∈ offsets 0 (pieces '\n' text)) : start ≤ byteLength text := by
  obtain ⟨i, hi⟩ := List.mem_iff_getElem?.mp h
  have hlt : i < (pieces '\n' text).length := by
    rw [← length_offsets 0]
    exact (List.getElem?_eq_some_iff.mp hi).1
  obtain ⟨start', stop, hstart, -, hslice⟩ := slice?_offsets [] (List.getElem?_eq_getElem hlt)
  obtain rfl : start' = start := Option.some.inj (hstart.symm.trans hi)
  rw [List.nil_append, intercalate_pieces] at hslice
  obtain ⟨before, after, htext, rfl, -⟩ := slice?_eq_some_iff.mp hslice
  rw [htext, byteLength_append]
  exact Nat.le_add_right _ _

/-- The bytes of the characters before a place lead to a boundary between two characters. -/
theorem isValid_byteLength {text : String} {before after : List Char}
    (h : text.toList = before ++ after) :
    String.Pos.Raw.IsValid text ⟨byteLength before⟩ := by
  refine String.Pos.Raw.isValid_iff_exists_append.mpr
    ⟨String.ofList before, String.ofList after, ?_, ?_⟩
  · rw [← String.ofList_append, ← h, String.ofList_toList]
  · rw [← String.toList_ofList (l := before), byteLength_toList, String.ofList_toList]
    rfl

namespace Source

variable {source : Source} {line : UInt32}

theorem getElem?_splitOn_eq_none_iff (hline : line ≠ 0) :
    (source.text.toList.splitOn '\n')[line.toNat - 1]? = none ↔ source.lineCount < line.toNat := by
  have hpos := toNat_sub_one_add_one hline
  rw [← pieces_eq_splitOn, List.getElem?_eq_none_iff, length_pieces, ← lineCount_eq]
  omega

/-- **A line is cut out between two characters.** -/
theorem isValid_span? {start stop : Nat} (h : source.span? line = some (start, stop)) :
    start ≤ stop ∧ String.Pos.Raw.IsValid source.text ⟨start⟩ ∧
      String.Pos.Raw.IsValid source.text ⟨stop⟩ ∧
      ∃ chars, slice? start stop source.text.toList = some chars := by
  have hline : line ≠ 0 := by
    intro hzero
    rw [span?, if_pos hzero] at h
    cases h
  cases hp : (pieces '\n' source.text.toList)[line.toNat - 1]? with
  | none => cases (span?_eq_none hp).symm.trans h
  | some piece =>
    obtain ⟨start', stop', hspan, hslice⟩ := exists_span?_eq hline hp
    obtain ⟨rfl, rfl⟩ := Prod.mk.inj (Option.some.inj (hspan.symm.trans h))
    obtain ⟨before, after, htext, rfl, rfl⟩ := slice?_eq_some_iff.mp hslice
    refine ⟨Nat.le_add_right _ _, isValid_byteLength htext, ?_, piece, hslice⟩
    rw [← byteLength_append]
    exact isValid_byteLength (by rw [htext, List.append_assoc])

/-- **A line with a number** is the piece with that number, up to the returns at its end. -/
theorem line?_eq_some_iff {text : String} :
    source.line? line = some text ↔ line ≠ 0 ∧ ∃ piece returns,
      (source.text.toList.splitOn '\n')[line.toNat - 1]? = some piece ∧
      piece = text.toList ++ returns ∧ (∀ c ∈ returns, c = '\r') ∧
      text.toList.getLast? ≠ some '\r' := by
  have hkept (piece : List Char) : String.ofList (dropTrailing (· = '\r') piece) = text ↔
      ∃ returns, piece = text.toList ++ returns ∧ (∀ c ∈ returns, c = '\r') ∧
        text.toList.getLast? ≠ some '\r' := by
    have hlast (last : Option Char) : (∀ c ∈ last, decide (c = '\r') = false) ↔ last ≠ some '\r' := by
      cases last <;> simp
    rw [← String.toList_inj, String.toList_ofList, dropTrailing_eq_iff]
    simp only [hlast, decide_eq_true_eq]
  rw [line?_eq, ← pieces_eq_splitOn]
  split
  · next hzero => exact ⟨nofun, fun h => absurd hzero h.1⟩
  · next hline =>
    rw [Option.map_eq_some_iff]
    simp only [hkept, exists_and_left]
    exact ⟨fun h => ⟨hline, h⟩, fun h => h.2⟩

/-- **An index that gives the lines of its source.** The lines are counted by the line feeds. A line
is there if its number is one of theirs, and it is the piece with this number, of which only carriage
returns at the end are missing. The offsets stand in order from zero on, none of them behind the end,
and the two between which a line is cut out are boundaries between characters, so that there is
always something to cut out. -/
structure IsIndexed (source : Source) : Prop where
  lineCount : source.lineCount = 1 + source.text.toList.count '\n'
  none_iff : ∀ line, source.line? line = none ↔ line = 0 ∨ source.lineCount < line.toNat
  some_iff : ∀ line text, source.line? line = some text ↔ line ≠ 0 ∧ ∃ piece returns,
    (source.text.toList.splitOn '\n')[line.toNat - 1]? = some piece ∧
    piece = text.toList ++ returns ∧ (∀ c ∈ returns, c = '\r') ∧
    text.toList.getLast? ≠ some '\r'
  head_starts : source.starts[0]? = some 0
  pairwise_starts : source.starts.toList.Pairwise (· < ·)
  starts_le : ∀ start ∈ source.starts, start ≤ source.text.utf8ByteSize
  cut_out : ∀ line, source.line? line = (source.span? line).bind fun span =>
    (slice? span.1 span.2 source.text.toList).map fun chars =>
      String.ofList (dropTrailing (· = '\r') chars)
  isValid : ∀ line start stop, source.span? line = some (start, stop) → start ≤ stop ∧
    String.Pos.Raw.IsValid source.text ⟨start⟩ ∧ String.Pos.Raw.IsValid source.text ⟨stop⟩ ∧
    ∃ chars, slice? start stop source.text.toList = some chars

/-- **The index of a text gives its lines**, whatever characters the text consists of. -/
theorem isIndexed_ofText (name text : String) : (ofText name text).IsIndexed where
  lineCount := by rw [lineCount_eq, Nat.add_comm]
  none_iff line := by
    rw [line?_eq]
    split
    · next hzero => exact iff_of_true rfl (Or.inl hzero)
    · next hline =>
      rw [Option.map_eq_none_iff, pieces_eq_splitOn, getElem?_splitOn_eq_none_iff hline,
        or_iff_right hline]
  some_iff line shown := line?_eq_some_iff
  head_starts := rfl
  pairwise_starts := by
    rw [starts_eq_offsets, List.toList_toArray]
    exact pairwise_offsets _ _
  starts_le start hstart := by
    rw [starts_eq_offsets, List.mem_toArray] at hstart
    rw [← byteLength_toList]
    exact le_byteLength_of_mem_offsets hstart
  cut_out := line?_eq_bind_span? _
  isValid _ _ _ := isValid_span?

/-- Two lines of one text are empty, and the last line is behind the last line feed. -/
example : ["é\r", "", "x\r\r", ""].map String.toList = "é\r\n\nx\r\r\n".toList.splitOn '\n' ∧
    [1, 2, 3, 4, 5].map (ofText "a.lox" "é\r\n\nx\r\r\n").line? =
      [some "é", some "", some "x", some "", none] := by
  decide +kernel

end Source

end Lox
