import Lox.Source.Basic

/-!
# Collections of sources

Sources are numbered in the order in which they are added. A number stays with its source, and two
sources may have the same name.

## Main definitions

* `Sources`: a collection
* `Sources.add`: a collection with one more source, and the number of that source
* `Sources.get?`: the source with a number
-/

namespace Lox

/-- Sources, numbered by their places. -/
structure Sources where
  files : Array Source := #[]

namespace Sources

/-- The collection of nothing. -/
def empty : Sources := {}

/-- The number of sources. -/
def size (sources : Sources) : Nat := sources.files.size

/-- The collection with one more source, and the number of that source. -/
def add (sources : Sources) (source : Source) : UInt32 × Sources :=
  (UInt32.ofNat sources.size, ⟨sources.files.push source⟩)

/-- The source with a number, if there is one. -/
def get? (sources : Sources) (id : UInt32) : Option Source := sources.files[id.toNat]?

end Sources

end Lox
