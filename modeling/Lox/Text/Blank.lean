import Lox.Text.Range
import Lox.Text.Trailing

/-!
# Blank characters

The Unicode property White_Space, and the removal of blanks at the end of a text.

## Main definitions

* `isBlank`: the property
* `trimEnd`: a text without the blanks at its end
-/

namespace Lox.Text

/-- The code points with the property White_Space. -/
def blanks : Ranges :=
  [(0x9, 0xd), (0x20, 0x20), (0x85, 0x85), (0xa0, 0xa0), (0x1680, 0x1680), (0x2000, 0x200a),
   (0x2028, 0x2029), (0x202f, 0x202f), (0x205f, 0x205f), (0x3000, 0x3000)]

/-- A character with the property White_Space. -/
def isBlank (c : Char) : Bool :=
  blanks.has c

/-- The text without the blanks at its end. -/
def trimEnd (text : String) : String :=
  String.ofList (dropTrailing isBlank text.toList)

end Lox.Text
