/-!
# Aligned columns

A column has a width, a fill and a side. A text is first cut to the column's limit, if it has one,
and then filled up to the width; a text that is wider stays as it is.

## Main definitions

* `Column`: the width, side, fill and limit of a column
* `Column.set`: a text set into a column
* `padStart`, `padEnd`: the two plain columns filled with spaces

## Main results

* `Column.mem_set`: a column holds the characters of its text and fills
* `toList_padStart`, `toList_padEnd`: the spaces before and after a text
-/

namespace Lox.Text

/-- The side on which a text stands in its column. -/
inductive Side
  | left
  | right
  | center
  deriving DecidableEq, Repr

/-- The layout of a column. -/
structure Column where
  width : Nat
  side : Side := .left
  fill : Char := ' '
  limit : Option Nat := none
  deriving DecidableEq, Repr

/-- The numbers of fills before and after the text, out of the missing ones. In the center the odd
one goes after the text. -/
def Side.share : Side → Nat → Nat × Nat
  | .left, missing => (0, missing)
  | .right, missing => (missing, 0)
  | .center, missing => (missing / 2, missing - missing / 2)

/-- A text set into a column. -/
def Column.set (column : Column) (text : String) : String :=
  let kept := match column.limit with
    | none => text.toList
    | some limit => text.toList.take limit
  let share := column.side.share (column.width - kept.length)
  String.ofList
    (List.replicate share.1 column.fill ++ kept ++ List.replicate share.2 column.fill)

/-- A text behind the spaces that fill up the width. -/
def padStart (width : Nat) (text : String) : String :=
  Column.set { width, side := .right } text

/-- A text before the spaces that fill up the width. -/
def padEnd (width : Nat) (text : String) : String :=
  Column.set { width } text

/-- **A column holds the characters of its text and fills.** -/
theorem Column.mem_set {column : Column} {text : String} {c : Char}
    (h : c ∈ (column.set text).toList) : c = column.fill ∨ c ∈ text.toList := by
  simp only [Column.set, String.toList_ofList, List.mem_append, List.mem_replicate] at h
  rcases h with (⟨-, h⟩ | h) | ⟨-, h⟩
  · exact Or.inl h
  · right
    split at h
    · exact h
    · exact List.mem_of_mem_take h
  · exact Or.inl h

theorem toList_padStart (width : Nat) (text : String) :
    (padStart width text).toList =
      List.replicate (width - text.toList.length) ' ' ++ text.toList := by
  simp [padStart, Column.set, Side.share]

theorem toList_padEnd (width : Nat) (text : String) :
    (padEnd width text).toList =
      text.toList ++ List.replicate (width - text.toList.length) ' ' := by
  simp [padEnd, Column.set, Side.share]

end Lox.Text
