/-!
# The end of a text

## Main definitions

* `dropTrailing p text`: a text without the characters at its end that satisfy `p`

## Main results

* `dropTrailing_append_of_neg`: a character that does not satisfy `p` stays at the end
* `getLast?_dropTrailing`: what is left does not end in a character that satisfies `p`
* `dropTrailing_eq_iff`: what is dropped, and what is left
* `dropTrailing_append`: the end of a text is that of its second part, unless nothing is left of it
-/

namespace Lox.Text

/-- The text up to its last character that does not satisfy `p`. -/
def dropTrailing (p : Char → Bool) (text : List Char) : List Char :=
  (text.reverse.dropWhile p).reverse

variable {p : Char → Bool} {text : List Char} {c : Char}

theorem dropTrailing_append_of_neg (h : p c = false) :
    dropTrailing p (text ++ [c]) = text ++ [c] := by
  simp [dropTrailing, h]

theorem getLast?_dropTrailing (h : (dropTrailing p text).getLast? = some c) : p c = false := by
  rw [dropTrailing, List.getLast?_reverse] at h
  have hc := List.head?_dropWhile_not p text.reverse
  rw [h] at hc
  simpa using hc

theorem exists_eq_dropTrailing_append (p : Char → Bool) (text : List Char) :
    ∃ tail, text = dropTrailing p text ++ tail ∧ ∀ c ∈ tail, p c = true := by
  refine ⟨(text.reverse.takeWhile p).reverse, ?_, fun c hc => ?_⟩
  · rw [dropTrailing, ← List.reverse_append, List.takeWhile_append_dropWhile, List.reverse_reverse]
  · exact List.all_eq_true.mp List.all_takeWhile c (List.mem_reverse.mp hc)

theorem mem_dropTrailing (h : c ∈ text) (hc : p c = false) : c ∈ dropTrailing p text := by
  obtain ⟨tail, ht, htail⟩ := exists_eq_dropTrailing_append p text
  rw [ht] at h
  rcases List.mem_append.mp h with h | h
  · exact h
  · simp [htail c h] at hc

theorem dropTrailing_append (p : Char → Bool) (s t : List Char) :
    dropTrailing p (s ++ t) =
      if dropTrailing p t = [] then dropTrailing p s else s ++ dropTrailing p t := by
  simp only [dropTrailing, List.reverse_append, List.dropWhile_append, List.isEmpty_iff,
    List.reverse_eq_nil_iff]
  split <;> simp

/-- **What is dropped and what is left** are told by the last character that is left. -/
theorem dropTrailing_eq_iff {kept : List Char} :
    dropTrailing p text = kept ↔ ∃ tail, text = kept ++ tail ∧ (∀ c ∈ tail, p c = true) ∧
      ∀ c ∈ kept.getLast?, p c = false := by
  constructor
  · rintro rfl
    obtain ⟨tail, htext, htail⟩ := exists_eq_dropTrailing_append p text
    exact ⟨tail, htext, htail, fun c hc => getLast?_dropTrailing hc⟩
  · rintro ⟨tail, rfl, htail, hlast⟩
    have hnone : dropTrailing p tail = [] := by
      rw [← List.getLast?_eq_none_iff, Option.eq_none_iff_forall_not_mem]
      intro c hc
      obtain ⟨more, htail', -⟩ := exists_eq_dropTrailing_append p tail
      have hmem : c ∈ tail := htail' ▸ List.mem_append_left _ (List.mem_of_getLast? hc)
      exact absurd (htail c hmem) (Bool.eq_false_iff.mp (getLast?_dropTrailing hc))
    rw [dropTrailing_append, if_pos hnone]
    cases hkept : kept.getLast? with
    | none =>
      rw [List.getLast?_eq_none_iff.mp hkept]
      rfl
    | some c =>
      obtain ⟨front, rfl⟩ := List.getLast?_eq_some_iff.mp hkept
      exact dropTrailing_append_of_neg (hlast c hkept)

end Lox.Text
