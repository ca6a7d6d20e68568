import Lox.CommandLine.Prompt
import Lox.Proofs.Encoding

/-!
# The lines of an input

An input is cut into lines among its bytes, before anything is known of the text that they encode.
If it is the encoding of a text, its lines are the encodings of the lines of the text.

## Main definitions

* `HasLines feed ret text lines`: what the lines of a text are, of bytes or of characters

## Main results

* `exists_hasLines`: every text has lines
* `HasLines.inputLines_eq`: the lines of an input are the lines that it has
* `HasLines.bytesOf`: the lines of an encoded text are the encoded lines of the text
-/

namespace Lox.CommandLine

/-- **The lines of a text.** A line feed ends a line, and a return before the line feed does not
belong to the line. What follows the last line feed is a line if it is not empty, and keeps its
return. -/
inductive HasLines {α : Type} (feed ret : α) : List α → List (List α) → Prop
  | nil : HasLines feed ret [] []
  | last {line : List α} : line ≠ [] → feed ∉ line → HasLines feed ret line [line]
  | feed {line rest : List α} {lines : List (List α)} : feed ∉ line → line.getLast? ≠ some ret →
      HasLines feed ret rest lines → HasLines feed ret (line ++ feed :: rest) (line :: lines)
  | returnFeed {line rest : List α} {lines : List (List α)} : feed ∉ line →
      HasLines feed ret rest lines →
      HasLines feed ret (line ++ ret :: feed :: rest) (line :: lines)

section

variable {α : Type} {feed ret x : α} {text : List α} {lines : List (List α)}

theorem HasLines.exists_cons (hx : x ≠ feed) (h : HasLines feed ret text lines) :
    ∃ lines, HasLines feed ret (x :: text) lines := by
  have notMem {line : List α} (hline : feed ∉ line) : feed ∉ x :: line :=
    List.not_mem_cons_of_ne_of_not_mem hx.symm hline
  cases h with
  | nil => exact ⟨[[x]], .last (by simp) (notMem List.not_mem_nil)⟩
  | last _ hline => exact ⟨[x :: text], .last (by simp) (notMem hline)⟩
  | @feed line rest lines hline hret hrest =>
    by_cases halone : line = [] ∧ x = ret
    · obtain ⟨rfl, rfl⟩ := halone
      exact ⟨[] :: lines, .returnFeed hline hrest⟩
    · refine ⟨(x :: line) :: lines, .feed (notMem hline) (fun hlast => ?_) hrest⟩
      rcases List.eq_nil_or_concat line with rfl | ⟨front, y, rfl⟩
      · exact halone ⟨rfl, by simpa using hlast⟩
      · rw [List.concat_eq_append] at hret hlast
        rw [← List.cons_append, List.getLast?_concat] at hlast
        exact hret (List.getLast?_concat.trans hlast)
  | @returnFeed line rest lines hline hrest =>
    exact ⟨(x :: line) :: lines, .returnFeed (notMem hline) hrest⟩

end

/-- **Every text has lines.** -/
theorem exists_hasLines {α : Type} (feed ret : α) (text : List α) :
    ∃ lines, HasLines feed ret text lines := by
  induction text with
  | nil => exact ⟨[], .nil⟩
  | cons x text ih =>
    obtain ⟨lines, h⟩ := ih
    by_cases hx : x = feed
    · subst hx
      exact ⟨[] :: lines, .feed List.not_mem_nil nofun h⟩
    · exact h.exists_cons hx

section

variable {α : Type} {feed ret : α} {text : List α} {lines : List (List α)}

theorem HasLines.notMem (h : HasLines feed ret text lines) : ∀ line ∈ lines, feed ∉ line := by
  induction h with
  | nil => exact nofun
  | last _ hline => exact List.forall_mem_singleton.mpr hline
  | feed hline _ _ ih | returnFeed hline _ ih => exact List.forall_mem_cons.mpr ⟨hline, ih⟩

/-- **The first lines of a text** are the lines of its beginning. -/
theorem HasLines.exists_of_prefix {front : List (List α)} (h : HasLines feed ret text lines)
    (hfront : front <+: lines) : ∃ before, before <+: text ∧ HasLines feed ret before front := by
  induction h generalizing front with
  | nil =>
    rw [List.prefix_nil.mp hfront]
    exact ⟨[], List.nil_prefix, .nil⟩
  | @last line hne hline =>
    rcases List.prefix_cons_iff.mp hfront with rfl | ⟨front, rfl, hmore⟩
    · exact ⟨[], List.nil_prefix, .nil⟩
    · rw [List.prefix_nil.mp hmore]
      exact ⟨line, List.prefix_rfl, .last hne hline⟩
  | @feed line rest lines hline hret _ ih =>
    rcases List.prefix_cons_iff.mp hfront with rfl | ⟨front, rfl, hmore⟩
    · exact ⟨[], List.nil_prefix, .nil⟩
    · obtain ⟨before, ⟨after, rfl⟩, hbefore⟩ := ih hmore
      exact ⟨line ++ _ :: before, ⟨after, by simp⟩, .feed hline hret hbefore⟩
  | @returnFeed line rest lines hline _ ih =>
    rcases List.prefix_cons_iff.mp hfront with rfl | ⟨front, rfl, hmore⟩
    · exact ⟨[], List.nil_prefix, .nil⟩
    · obtain ⟨before, ⟨after, rfl⟩, hbefore⟩ := ih hmore
      exact ⟨line ++ ret :: _ :: before, ⟨after, by simp⟩, .returnFeed hline hbefore⟩

end

/-! ## Lines of bytes -/

/-- The byte that may stand before the end of a line. -/
def carriageReturn : UInt8 := 13

section

variable {line rest : List UInt8}

theorem dropReturn_of_getLast?_ne (h : line.getLast? ≠ some carriageReturn) :
    dropReturn line = line := if_neg h

theorem dropReturn_append_return (line : List UInt8) :
    dropReturn (line ++ [carriageReturn]) = line := by
  have h : (line ++ [carriageReturn]).getLast? = some 13 := List.getLast?_concat
  rw [dropReturn, if_pos h, List.dropLast_concat]

theorem inputLines_of_notMem (h : lineFeed ∉ line) :
    inputLines line = if line = [] then [] else [line] := by
  rw [inputLines, Text.pieces_of_notMem h]
  rfl

theorem inputLines_append_cons (h : lineFeed ∉ line) (rest : List UInt8) :
    inputLines (line ++ lineFeed :: rest) = dropReturn line :: inputLines rest := by
  obtain ⟨piece, more, hp⟩ := List.exists_cons_of_ne_nil (Text.pieces_ne_nil lineFeed rest)
  rw [inputLines, inputLines, Text.pieces_append_cons h, hp]
  rfl

end

/-- **The lines of an input are the lines that it has.** -/
theorem HasLines.inputLines_eq {bytes : List UInt8} {lines : List (List UInt8)}
    (h : HasLines lineFeed carriageReturn bytes lines) : inputLines bytes = lines := by
  induction h with
  | nil => rfl
  | last hne hline => rw [inputLines_of_notMem hline, if_neg hne]
  | feed hline hret _ ih =>
    rw [inputLines_append_cons hline, dropReturn_of_getLast?_ne hret, ih]
  | @returnFeed line rest lines hline _ ih =>
    have hfeed : lineFeed ∉ line ++ [carriageReturn] := by
      rw [List.mem_append, not_or]
      exact ⟨hline, by decide⟩
    have split : line ++ carriageReturn :: lineFeed :: rest =
        line ++ [carriageReturn] ++ lineFeed :: rest := by simp
    rw [split, inputLines_append_cons hfeed, dropReturn_append_return, ih]

/-! ## Lines of an encoded text -/

section

variable {b : UInt8} {c : Char} {text : List Char}

theorem mem_of_mem_flatMap_utf8EncodeChar (hb : b.toNat < 128) (hc : c.toNat = b.toNat)
    (h : b ∈ text.flatMap String.utf8EncodeChar) : c ∈ text := by
  obtain ⟨d, hd, hmem⟩ := List.mem_flatMap.mp h
  have hdc : d.toNat = c.toNat := (toNat_eq_of_mem_utf8EncodeChar hmem hb).trans hc.symm
  rwa [Char.toNat_inj.mp hdc] at hd

theorem getLast?_of_getLast?_flatMap_utf8EncodeChar (hb : b.toNat < 128) (hc : c.toNat = b.toNat)
    (h : (text.flatMap String.utf8EncodeChar).getLast? = some b) : text.getLast? = some c := by
  rcases List.eq_nil_or_concat text with rfl | ⟨front, d, rfl⟩
  · cases h
  · have hmem : b ∈ String.utf8EncodeChar d := by
      rw [List.concat_eq_append, List.flatMap_append, List.flatMap_singleton,
        List.getLast?_append, Option.or_eq_some_iff] at h
      rcases h with h | ⟨h, -⟩
      · exact List.mem_of_getLast? h
      · exact absurd (List.getLast?_eq_none_iff.mp h) String.utf8EncodeChar_ne_nil
    have hdc : d.toNat = c.toNat := (toNat_eq_of_mem_utf8EncodeChar hmem hb).trans hc.symm
    rw [List.concat_eq_append, List.getLast?_concat, Char.toNat_inj.mp hdc]

theorem HasLines.flatMap_utf8EncodeChar {lines : List (List Char)}
    (h : HasLines '\n' '\r' text lines) :
    HasLines lineFeed carriageReturn (text.flatMap String.utf8EncodeChar)
      (lines.map (List.flatMap String.utf8EncodeChar)) := by
  have notMem {line : List Char} (hline : '\n' ∉ line) :
      lineFeed ∉ line.flatMap String.utf8EncodeChar :=
    mt (mem_of_mem_flatMap_utf8EncodeChar (by decide) rfl) hline
  induction h with
  | nil => exact .nil
  | @last line hne hline =>
    refine .last (fun hnil => ?_) (notMem hline)
    obtain ⟨c, cs, rfl⟩ := List.exists_cons_of_ne_nil hne
    exact String.utf8EncodeChar_ne_nil (List.append_eq_nil_iff.mp hnil).1
  | feed hline hret _ ih =>
    rw [List.flatMap_append]
    exact .feed (notMem hline)
      (mt (getLast?_of_getLast?_flatMap_utf8EncodeChar (by decide) rfl) hret) ih
  | returnFeed hline _ ih =>
    rw [List.flatMap_append]
    exact .returnFeed (notMem hline) ih

end

/-- **The lines of an encoded text** are the encoded lines of the text. -/
theorem HasLines.bytesOf {text : String} {lines : List String}
    (h : HasLines '\n' '\r' text.toList (lines.map String.toList)) :
    HasLines lineFeed carriageReturn (bytesOf text) (lines.map bytesOf) := by
  have encoded := h.flatMap_utf8EncodeChar
  have each : List.flatMap String.utf8EncodeChar ∘ String.toList = CommandLine.bytesOf :=
    funext fun line => (bytesOf_eq_flatMap line).symm
  rwa [List.map_map, each, ← bytesOf_eq_flatMap] at encoded

theorem lineFeed_notMem_toList {text : String} (h : lineFeed ∉ bytesOf text) :
    '\n' ∉ text.toList := by
  intro hmem
  apply h
  rw [bytesOf_eq_flatMap]
  exact List.mem_flatMap.mpr ⟨'\n', hmem, by decide⟩

end Lox.CommandLine
