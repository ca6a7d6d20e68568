/-!
# Pieces between separators

## Main definitions

* `pieces sep text`: the pieces of a list between its separators

## Main results

* `pieces_of_notMem`, `pieces_append_cons`: the first piece ends before the first separator
* `pieces_append_sep`: the pieces on both sides of a separator
* `length_pieces`: there is one piece more than there are separators
-/

namespace Lox.Text

variable {α : Type} [DecidableEq α]

/-- The pieces of a list between its separators, empty ones included. -/
def pieces (sep : α) : List α → List (List α)
  | [] => [[]]
  | x :: rest =>
    if x = sep then [] :: pieces sep rest
    else
      match pieces sep rest with
      | [] => [[x]]
      | piece :: more => (x :: piece) :: more

theorem pieces_ne_nil (sep : α) (text : List α) : pieces sep text ≠ [] := by
  cases text with
  | nil => simp [pieces]
  | cons x rest =>
    unfold pieces
    split
    · simp
    · split <;> simp

theorem pieces_cons_self (sep : α) (text : List α) :
    pieces sep (sep :: text) = [] :: pieces sep text := by
  simp [pieces]

/-- What is no separator joins the first piece. -/
theorem exists_pieces_cons {sep x : α} (hx : x ≠ sep) (text : List α) :
    ∃ piece more, pieces sep text = piece :: more ∧
      pieces sep (x :: text) = (x :: piece) :: more := by
  obtain ⟨piece, more, h⟩ := List.exists_cons_of_ne_nil (pieces_ne_nil sep text)
  exact ⟨piece, more, h, by rw [pieces, if_neg hx, h]⟩

theorem pieces_of_notMem {sep : α} {text : List α} (h : sep ∉ text) : pieces sep text = [text] := by
  induction text with
  | nil => rfl
  | cons x text ih =>
    rw [pieces, if_neg (List.ne_of_not_mem_cons h).symm, ih (List.not_mem_of_not_mem_cons h)]

/-- **A text without separators before the first one is a piece.** -/
theorem pieces_append_cons {sep : α} {text : List α} (h : sep ∉ text) (rest : List α) :
    pieces sep (text ++ sep :: rest) = text :: pieces sep rest := by
  induction text with
  | nil => exact pieces_cons_self sep rest
  | cons x text ih =>
    rw [List.cons_append, pieces, if_neg (List.ne_of_not_mem_cons h).symm,
      ih (List.not_mem_of_not_mem_cons h)]

/-- **The pieces before a separator and those behind it.** -/
theorem pieces_append_sep (sep : α) (text rest : List α) :
    pieces sep (text ++ sep :: rest) = pieces sep text ++ pieces sep rest := by
  induction text with
  | nil => exact pieces_cons_self sep rest
  | cons x text ih =>
    by_cases hx : x = sep
    · subst hx
      rw [List.cons_append, pieces_cons_self, pieces_cons_self, ih, List.cons_append]
    · obtain ⟨piece, more, hp, hcons⟩ := exists_pieces_cons hx text
      rw [List.cons_append, pieces, if_neg hx, ih, hp, hcons]
      rfl

theorem length_pieces (sep : α) (text : List α) :
    (pieces sep text).length = text.count sep + 1 := by
  induction text with
  | nil => rfl
  | cons x rest ih =>
    rw [pieces]
    split
    · next h => simp [h, ih]
    · next h =>
      split
      · next h' => exact absurd h' (pieces_ne_nil sep rest)
      · next piece more h' =>
        rw [h'] at ih
        simpa [List.count_cons, h] using ih

end Lox.Text
