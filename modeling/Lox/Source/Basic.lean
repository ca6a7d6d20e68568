import Lox.Text.Slice
import Lox.Text.Trailing

/-!
# Sources and their lines

A source is a named text with the byte offsets at which its lines begin. Lines end at a line feed
and are counted from one; the carriage returns at the end of a line do not belong to it.

## Main definitions

* `lineStarts`: the offsets at which the lines of a text begin
* `Source`, `Source.ofText`: a named text with these offsets
* `Source.line?`: a line by its number

## Main results

* `length_lineStarts`: there is one line more than there are line feeds
-/

namespace Lox

/-- The offsets behind the line feeds of a text that begins at an offset. -/
def startsAfter (offset : Nat) : List Char → List Nat
  | [] => []
  | c :: rest =>
    let next := offset + c.utf8Size
    if c = '\n' then next :: startsAfter next rest else startsAfter next rest

/-- The offsets at which the lines of a text begin. -/
def lineStarts (text : List Char) : List Nat := 0 :: startsAfter 0 text

theorem length_startsAfter (offset : Nat) (text : List Char) :
    (startsAfter offset text).length = text.count '\n' := by
  induction text generalizing offset with
  | nil => rfl
  | cons c rest ih => by_cases h : c = '\n' <;> simp [startsAfter, h, ih]

theorem length_lineStarts (text : List Char) :
    (lineStarts text).length = text.count '\n' + 1 := by
  simp [lineStarts, length_startsAfter]

/-- A named text with the offsets of its lines. -/
structure Source where
  name : String
  text : String
  starts : Array Nat := (lineStarts text.toList).toArray
  starts_eq : starts = (lineStarts text.toList).toArray := by rfl

namespace Source

/-- A text under a name. -/
def ofText (name text : String) : Source := { name, text }

/-- The number of lines. -/
def lineCount (source : Source) : Nat := source.starts.size

/-- A line by its number, without the line feed and the carriage returns that end it. -/
def line? (source : Source) (line : UInt32) : Option String :=
  if line = 0 then none
  else
    match source.starts[line.toNat - 1]? with
    | none => none
    | some start =>
      let stop := match source.starts[line.toNat]? with
        | some next => next - 1
        | none => source.text.utf8ByteSize
      (Text.slice? start stop source.text.toList).map fun chars =>
        String.ofList (Text.dropTrailing (· = '\r') chars)

theorem lineCount_eq (source : Source) :
    source.lineCount = source.text.toList.count '\n' + 1 := by
  rw [lineCount, source.starts_eq, List.size_toArray, length_lineStarts]

end Source

end Lox
