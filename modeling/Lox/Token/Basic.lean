import Lox.Number.Shortest
import Lox.Token.Kind

/-!
# Tokens

A token is a lexeme of the source with its kind, its line and, for numbers and strings, the value
it denotes. The end of the source is a token with an empty lexeme.

## Main definitions

* `Literal`, `Literal.text`: the value of a number or a string, and how it is shown
* `Literal.read?`: the value that a lexeme denotes
* `Token`, `Token.eof`, `Token.text`: tokens, and how one is shown
* `Token.equal`: equality of tokens, with numbers compared numerically
-/

namespace Lox

open Number (Binary64 Decimal)

/-- The value of a literal. -/
inductive Literal
  | number (value : Binary64)
  | string (value : String)
  deriving DecidableEq

namespace Literal

/-- The value of a number. -/
def number? : Literal → Option Binary64
  | number value => some value
  | string _ => none

/-- The value of a string. -/
def string? : Literal → Option String
  | number _ => none
  | string value => some value

/-- The value as text: a number with its shortest decimal, a string as it is. -/
def text : Literal → String
  | number value => String.ofList value.text
  | string value => value

/-- Equality of values, with numbers compared numerically. -/
def equal : Literal → Literal → Bool
  | number x, number y => x.equal y
  | string s, string t => s = t
  | _, _ => false

/-- The number that a lexeme denotes: the nearest binary64 number to the decimal. -/
def readNumber? (lexeme : List Char) : Option Literal :=
  (Decimal.parse? lexeme).map fun d => number d.toBinary64

/-- The string that a lexeme denotes: what stands between its quotation marks. -/
def readString (lexeme : List Char) : Literal :=
  string (String.ofList lexeme.tail.dropLast)

end Literal

/-- A token of the source. -/
structure Token where
  kind : Kind
  /-- The text of the token in the source. -/
  lexeme : String
  /-- The value of a number or a string. -/
  literal : Option Literal
  /-- The line of the first character, counted from one. -/
  line : UInt32
  deriving DecidableEq

namespace Token

/-- The end of the source. -/
def eof (line : UInt32) : Token :=
  { kind := .eof, lexeme := "", literal := none, line }

/-- Whether the token is of a kind. -/
def is (token : Token) (kind : Kind) : Bool := token.kind = kind

/-- Whether the token is the end of the source. -/
def isEof (token : Token) : Bool := token.is .eof

/-- The kind, the lexeme and the value, `null` if there is none. -/
def text (token : Token) : String :=
  token.kind.name ++ " " ++ token.lexeme ++ " " ++ (token.literal.map Literal.text).getD "null"

/-- Equality of tokens, with numbers compared numerically: a token with a NaN differs from
itself. -/
def equal (s t : Token) : Bool :=
  s.kind = t.kind && s.lexeme = t.lexeme && s.line = t.line &&
    match s.literal, t.literal with
    | none, none => true
    | some x, some y => x.equal y
    | _, _ => false

end Token

end Lox
