import Lox.Text.Range

/-!
# Characters that leave no mark

Characters that are assigned and leave no mark on the page: the general categories Zs, Zl and Zp
(separators) and Cf (format) of Unicode 17.0, the plain space U+0020 excepted, and the letters with
the property Default_Ignorable_Code_Point.

## Main definitions

* `unseen`: the ranges of these categories
* `fillers`: the ignorable letters
-/

namespace Lox.Text

/-- The separators other than U+0020 and the format characters. -/
def unseen : Ranges :=
  [(0xa0, 0xa0), (0xad, 0xad), (0x600, 0x605), (0x61c, 0x61c), (0x6dd, 0x6dd), (0x70f, 0x70f),
   (0x890, 0x891), (0x8e2, 0x8e2), (0x1680, 0x1680), (0x180e, 0x180e), (0x2000, 0x200f),
   (0x2028, 0x202f), (0x205f, 0x2064), (0x2066, 0x206f), (0x3000, 0x3000), (0xfeff, 0xfeff),
   (0xfff9, 0xfffb), (0x110bd, 0x110bd), (0x110cd, 0x110cd), (0x13430, 0x1343f),
   (0x1bca0, 0x1bca3), (0x1d173, 0x1d17a), (0xe0001, 0xe0001), (0xe0020, 0xe007f)]

/-- The fillers of Hangul syllables, in full and half width: the only letters that are ignorable. -/
def fillers : Ranges := [(0x115f, 0x1160), (0x3164, 0x3164), (0xffa0, 0xffa0)]

end Lox.Text
