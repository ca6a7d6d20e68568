import Lox.Source.Basic
import Lox.Text.Pieces

/-!
# Lines by their offsets

The offsets of a source are those at which the pieces between its line feeds begin, so that the line
with a number is the piece with that number, without the carriage returns at its end.

## Main definitions

* `offsets offset pieces`: where pieces begin if each is followed by a line feed
* `Source.span?`: the offsets between which a line is cut out
* `IsLine text number line`: what the line with a number is, apart from any index

## Main results

* `startsAfter_eq_offsets`: the offsets of a text are those of its pieces
* `slice?_offsets`: a slice between two offsets is the piece between them
* `Source.exists_span?_eq`: what is cut out between the offsets of a line is a piece
* `Source.line?_eq`: a line by its number is a piece by its number
* `Source.isLine_of_line?`: a line by its number is the line with this number
-/

namespace Lox

open Text

/-- Where pieces begin if the first begins at an offset and each is followed by a line feed. -/
def offsets (offset : Nat) : List (List Char) → List Nat
  | [] => []
  | piece :: more => offset :: offsets (offset + byteLength piece + 1) more

theorem length_offsets (offset : Nat) (ps : List (List Char)) :
    (offsets offset ps).length = ps.length := by
  induction ps generalizing offset with
  | nil => rfl
  | cons p ps ih => simp [offsets, ih]

theorem utf8Size_lineFeed : Char.utf8Size '\n' = 1 := by decide

theorem byteLength_toList (s : String) : byteLength s.toList = s.utf8ByteSize := by
  have h : ∀ cs : List Char, byteLength cs = (String.ofList cs).utf8ByteSize := by
    intro cs
    induction cs with
    | nil => rfl
    | cons c cs ih =>
      have hc : String.ofList (c :: cs) = String.singleton c ++ String.ofList cs := by
        rw [String.singleton_eq_ofList, ← String.ofList_append]
        rfl
      rw [byteLength_cons, ih, hc, String.utf8ByteSize_append, String.utf8ByteSize_singleton]
  rw [h, String.ofList_toList]

/-! ## Offsets and pieces -/

/-- **The offsets of a text are those of its pieces.** -/
theorem startsAfter_eq_offsets (offset : Nat) (text : List Char) :
    offset :: startsAfter offset text = offsets offset (pieces '\n' text) := by
  induction text generalizing offset with
  | nil => rfl
  | cons c text ih =>
    by_cases hc : c = '\n'
    · subst hc
      rw [pieces_cons_self, offsets, ← ih, startsAfter]
      simp [utf8Size_lineFeed]
    · obtain ⟨piece, more, hp, hp'⟩ := exists_pieces_cons hc text
      have h := ih (offset + c.utf8Size)
      rw [hp, offsets, List.cons.injEq] at h
      rw [hp', offsets, startsAfter]
      simp [hc, h.2, Nat.add_assoc]

theorem intercalate_pieces (text : List Char) :
    ['\n'].intercalate (pieces '\n' text) = text := by
  induction text with
  | nil => rfl
  | cons c text ih =>
    by_cases hc : c = '\n'
    · subst hc
      obtain ⟨piece, more, hp⟩ := List.exists_cons_of_ne_nil (pieces_ne_nil '\n' text)
      rw [pieces_cons_self, hp, List.intercalate_cons_cons, ← hp, ih]
      rfl
    · obtain ⟨piece, more, hp, hp'⟩ := exists_pieces_cons hc text
      rw [hp] at ih
      rw [hp', ← ih]
      cases more with
      | nil => simp
      | cons => simp [List.intercalate_cons_cons]

/-- **A slice between two offsets is the piece between them.** It stops at the line feed before the
next offset, or at the end of the text if there is none. -/
theorem slice?_offsets (before : List Char) {ps : List (List Char)} {i : Nat} {piece : List Char}
    (h : ps[i]? = some piece) :
    ∃ start stop, (offsets (byteLength before) ps)[i]? = some start ∧
      ((offsets (byteLength before) ps)[i + 1]? = some (stop + 1) ∨
        (offsets (byteLength before) ps)[i + 1]? = none ∧
          stop = byteLength (before ++ ['\n'].intercalate ps)) ∧
      slice? start stop (before ++ ['\n'].intercalate ps) = some piece := by
  induction ps generalizing before i with
  | nil => simp at h
  | cons p ps ih =>
    cases i with
    | zero =>
      obtain rfl : p = piece := by simpa using h
      refine ⟨byteLength before, byteLength before + byteLength p, rfl, ?_⟩
      cases ps with
      | nil => simpa [offsets] using slice?_append before p []
      | cons q qs =>
        rw [List.intercalate_cons_cons]
        simpa [offsets] using slice?_append before p ('\n' :: ['\n'].intercalate (q :: qs))
    | succ i =>
      have hps : ps ≠ [] := by
        rintro rfl
        simp at h
      obtain ⟨q, qs, rfl⟩ := List.exists_cons_of_ne_nil hps
      have hl : byteLength (before ++ p ++ ['\n']) = byteLength before + byteLength p + 1 := by
        simp [utf8Size_lineFeed, Nat.add_assoc]
      have ht : before ++ ['\n'].intercalate (p :: q :: qs) =
          before ++ p ++ ['\n'] ++ ['\n'].intercalate (q :: qs) := by
        rw [List.intercalate_cons_cons]
        simp
      obtain ⟨start, stop, hs⟩ := ih (before ++ p ++ ['\n']) (by simpa using h)
      rw [hl] at hs
      exact ⟨start, stop, ht ▸ hs⟩

/-- The index of a line counted from one. -/
theorem toNat_sub_one_add_one {line : UInt32} (h : line ≠ 0) :
    line.toNat - 1 + 1 = line.toNat := by
  have : line.toNat ≠ 0 := fun h0 => h (UInt32.toNat_inj.mp h0)
  omega

namespace Source

variable (source : Source) (line : UInt32)

theorem starts_eq_offsets :
    source.starts = (offsets 0 (pieces '\n' source.text.toList)).toArray := by
  rw [source.starts_eq, lineStarts, startsAfter_eq_offsets]

/-- The offsets between which a line is cut out: where it begins, and where the line feed before the
next line stands, or the text ends. -/
def span? : Option (Nat × Nat) :=
  if line = 0 then none
  else (source.starts[line.toNat - 1]?).map fun start =>
    (start, (source.starts[line.toNat]?).elim source.text.utf8ByteSize (· - 1))

/-- A line is what is cut out, without the carriage returns at its end. -/
theorem line?_eq_bind_span? :
    source.line? line = (source.span? line).bind fun span =>
      (slice? span.1 span.2 source.text.toList).map fun chars =>
        String.ofList (dropTrailing (· = '\r') chars) := by
  unfold line? span?
  split
  · rfl
  · cases source.starts[line.toNat - 1]? with
    | none => rfl
    | some start => cases source.starts[line.toNat]? <;> rfl

variable {source line}

/-- **What is cut out is the piece** with the number of the line. -/
theorem exists_span?_eq {piece : List Char} (hline : line ≠ 0)
    (hp : (pieces '\n' source.text.toList)[line.toNat - 1]? = some piece) :
    ∃ start stop, source.span? line = some (start, stop) ∧
      slice? start stop source.text.toList = some piece := by
  obtain ⟨start, stop, hs, hstop, hslice⟩ := slice?_offsets [] hp
  rw [List.nil_append, intercalate_pieces, toNat_sub_one_add_one hline, byteLength_toList,
    byteLength_nil] at hstop
  rw [List.nil_append, intercalate_pieces] at hslice
  rw [byteLength_nil] at hs
  refine ⟨start, stop, ?_, hslice⟩
  rw [span?, if_neg hline, starts_eq_offsets, List.getElem?_toArray, List.getElem?_toArray, hs]
  rcases hstop with hnext | ⟨hnext, rfl⟩ <;> rw [hnext] <;> rfl

theorem span?_eq_none
    (hp : (pieces '\n' source.text.toList)[line.toNat - 1]? = none) : source.span? line = none := by
  have hn : (offsets 0 (pieces '\n' source.text.toList))[line.toNat - 1]? = none := by
    rw [List.getElem?_eq_none_iff] at hp ⊢
    rwa [length_offsets]
  rw [span?, starts_eq_offsets, List.getElem?_toArray, List.getElem?_toArray, hn, Option.map_none,
    ite_self]

variable (source line)

/-- **A line by its number is a piece by its number**, without the carriage returns at its end. -/
theorem line?_eq :
    source.line? line = if line = 0 then none else
      ((pieces '\n' source.text.toList)[line.toNat - 1]?).map fun piece =>
        String.ofList (dropTrailing (· = '\r') piece) := by
  rw [line?_eq_bind_span?]
  split
  · next hline => rw [span?, if_pos hline, Option.bind_none]
  · next hline =>
    cases hp : (pieces '\n' source.text.toList)[line.toNat - 1]? with
    | none => rw [span?_eq_none hp, Option.bind_none, Option.map_none]
    | some piece =>
      obtain ⟨start, stop, hspan, hslice⟩ := exists_span?_eq hline hp
      rw [hspan, Option.bind_some, hslice, Option.map_some]

end Source

/-! ## What a line is -/

/-- **The line with a number**, counted from one. It begins behind a line feed or with the text,
and ends before one or with the text; the carriage returns at its end do not belong to it. -/
inductive IsLine (text : List Char) (number : Nat) (line : List Char) : Prop
  | intro {before returns after : List Char} : text = before ++ (line ++ returns) ++ after →
      before.count '\n' + 1 = number →
      before = [] ∨ before.getLast? = some '\n' → '\n' ∉ line →
      line.getLast? ≠ some '\r' → (∀ c ∈ returns, c = '\r') →
      after = [] ∨ after.head? = some '\n' → IsLine text number line

theorem exists_append_of_getElem?_pieces {sep : Char} {text piece : List Char} {i : Nat}
    (h : (pieces sep text)[i]? = some piece) :
    ∃ before after, text = before ++ piece ++ after ∧ before.count sep = i ∧
      (before = [] ∨ before.getLast? = some sep) ∧ sep ∉ piece ∧
      (after = [] ∨ after.head? = some sep) := by
  induction text generalizing i piece with
  | nil =>
    obtain ⟨rfl, rfl⟩ : i = 0 ∧ piece = [] := by
      cases i <;> simp_all [pieces]
    exact ⟨[], [], by simp⟩
  | cons c text ih =>
    by_cases hc : c = sep
    · subst hc
      rw [pieces_cons_self] at h
      cases i with
      | zero =>
        obtain rfl : [] = piece := by simpa using h
        exact ⟨[], c :: text, by simp⟩
      | succ i =>
        obtain ⟨before, after, rfl, rfl, hb, hp, ha⟩ := ih (by simpa using h)
        refine ⟨c :: before, after, by simp, by simp, Or.inr ?_, hp, ha⟩
        rcases hb with rfl | hb
        · rfl
        · simp [List.getLast?_cons, hb]
    · obtain ⟨first, more, hf, hf'⟩ := exists_pieces_cons hc text
      rw [hf'] at h
      rw [hf] at ih
      cases i with
      | zero =>
        obtain rfl : c :: first = piece := by simpa using h
        obtain ⟨before, after, rfl, hn, hb, hp, ha⟩ := ih (i := 0) rfl
        obtain rfl : before = [] := hb.resolve_right fun hl =>
          List.count_eq_zero.mp hn (List.mem_of_getLast? hl)
        have hp' : sep ∉ c :: first := List.not_mem_cons_of_ne_of_not_mem (Ne.symm hc) hp
        exact ⟨[], after, rfl, rfl, Or.inl rfl, hp', ha⟩
      | succ i =>
        obtain ⟨before, after, rfl, hn, hb, hp, ha⟩ := ih (i := i + 1) (by simpa using h)
        have hne : before ≠ [] := by
          rintro rfl
          simp at hn
        refine ⟨c :: before, after, rfl, ?_, Or.inr ?_, hp, ha⟩
        · rw [List.count_cons_of_ne hc, hn]
        · simp [List.getLast?_cons, hb.resolve_left hne]

/-- **A line by its number is the line with this number.** -/
theorem Source.isLine_of_line? {source : Source} {line : UInt32} {text : String}
    (h : source.line? line = some text) :
    IsLine source.text.toList line.toNat text.toList := by
  rw [line?_eq] at h
  split at h
  · cases h
  next hline =>
  have hpos := toNat_sub_one_add_one hline
  obtain ⟨piece, hp, rfl⟩ := Option.map_eq_some_iff.mp h
  obtain ⟨before, after, ht, hn, hb, hnot, ha⟩ := exists_append_of_getElem?_pieces hp
  obtain ⟨returns, hr, hret⟩ := exists_eq_dropTrailing_append (· = '\r') piece
  rw [String.toList_ofList]
  refine .intro (by rw [ht, ← hr]) (by rw [hn, hpos]) hb ?_ ?_ (by simpa using hret) ha
  · intro hmem
    rw [hr] at hnot
    exact hnot (List.mem_append_left _ hmem)
  · intro hlast
    simpa using getLast?_dropTrailing hlast

end Lox
