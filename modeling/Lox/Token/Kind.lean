/-!
# Token kinds

The kinds of token: marks, operators of one or two characters, identifiers, the two literals, the
reserved words and the end of the source. A reserved word is spelled in lower case, and no other
spelling of it is reserved.

## Main definitions

* `Keyword`, `Keyword.spelling`, `Keyword.ofSpelling?`: the reserved words and their table
* `Kind`, `Kind.name`: the kinds and their names
* `Kind.ofMark?`, `Kind.ofOperator?`: the kinds told by one character, or by one and a `=`

## Main results

* `Keyword.ofSpelling?_eq_some_iff`: the table holds each word under its spelling and nothing else
-/

namespace Lox

/-- The reserved words. -/
inductive Keyword
  | kwAnd
  | kwClass
  | kwElse
  | kwFalse
  | kwFun
  | kwFor
  | kwIf
  | kwNil
  | kwOr
  | kwPrint
  | kwReturn
  | kwSuper
  | kwThis
  | kwTrue
  | kwVar
  | kwWhile
  deriving DecidableEq

namespace Keyword

/-- The word in a source. -/
def spelling : Keyword → String
  | kwAnd => "and"
  | kwClass => "class"
  | kwElse => "else"
  | kwFalse => "false"
  | kwFun => "fun"
  | kwFor => "for"
  | kwIf => "if"
  | kwNil => "nil"
  | kwOr => "or"
  | kwPrint => "print"
  | kwReturn => "return"
  | kwSuper => "super"
  | kwThis => "this"
  | kwTrue => "true"
  | kwVar => "var"
  | kwWhile => "while"

/-- Every reserved word. -/
def all : List Keyword :=
  [kwAnd, kwClass, kwElse, kwFalse, kwFun, kwFor, kwIf, kwNil, kwOr, kwPrint, kwReturn, kwSuper,
   kwThis, kwTrue, kwVar, kwWhile]

/-- The reserved word with this spelling, if there is one. -/
def ofSpelling? (word : String) : Option Keyword :=
  all.find? (·.spelling = word)

theorem mem_all (w : Keyword) : w ∈ all := by
  cases w <;> decide

theorem ofSpelling?_spelling (w : Keyword) : ofSpelling? w.spelling = some w := by
  cases w <;> decide

theorem spelling_injective {v w : Keyword} (h : v.spelling = w.spelling) : v = w := by
  simpa [ofSpelling?_spelling] using congrArg ofSpelling? h

theorem ofSpelling?_eq_some_iff {word : String} {w : Keyword} :
    ofSpelling? word = some w ↔ w.spelling = word :=
  ⟨fun h => by simpa using List.find?_some h, fun h => h ▸ ofSpelling?_spelling w⟩

end Keyword

/-- The kinds of token. -/
inductive Kind
  | leftParen
  | rightParen
  | leftBrace
  | rightBrace
  | comma
  | dot
  | minus
  | plus
  | semicolon
  | slash
  | star
  | bang
  | bangEqual
  | equal
  | equalEqual
  | greater
  | greaterEqual
  | less
  | lessEqual
  | identifier
  | string
  | number
  | keyword (word : Keyword)
  | eof
  deriving DecidableEq

namespace Kind

/-- The name of a kind. A reserved word is named by its spelling in upper case. -/
def name : Kind → String
  | leftParen => "LEFT_PAREN"
  | rightParen => "RIGHT_PAREN"
  | leftBrace => "LEFT_BRACE"
  | rightBrace => "RIGHT_BRACE"
  | comma => "COMMA"
  | dot => "DOT"
  | minus => "MINUS"
  | plus => "PLUS"
  | semicolon => "SEMICOLON"
  | slash => "SLASH"
  | star => "STAR"
  | bang => "BANG"
  | bangEqual => "BANG_EQUAL"
  | equal => "EQUAL"
  | equalEqual => "EQUAL_EQUAL"
  | greater => "GREATER"
  | greaterEqual => "GREATER_EQUAL"
  | less => "LESS"
  | lessEqual => "LESS_EQUAL"
  | identifier => "IDENTIFIER"
  | string => "STRING"
  | number => "NUMBER"
  | keyword word => String.ofList (word.spelling.toList.map Char.toUpper)
  | eof => "EOF"

/-- Every kind. -/
def all : List Kind :=
  [leftParen, rightParen, leftBrace, rightBrace, comma, dot, minus, plus, semicolon, slash, star,
   bang, bangEqual, equal, equalEqual, greater, greaterEqual, less, lessEqual, identifier, string,
   number] ++ Keyword.all.map keyword ++ [eof]

theorem mem_all (k : Kind) : k ∈ all := by
  cases k with
  | keyword w => simp [all, Keyword.mem_all w]
  | _ => simp [all]

/-- The kind with this name, if there is one. -/
def ofName? (name : String) : Option Kind :=
  all.find? (·.name = name)

/-- Whether a kind is that of a reserved word. -/
def isKeyword : Kind → Bool
  | keyword _ => true
  | _ => false

/-- The kinds whose tokens carry a value. -/
def isLiteral : Kind → Bool
  | string | number => true
  | _ => false

/-- The parts of a name joined without underscores. Only the first letter of a part stays a
capital; `initial` says that the next letter is one. -/
def joinParts (initial : Bool) : List Char → List Char
  | [] => []
  | c :: rest =>
    if c = '_' then joinParts true rest
    else (if initial then c else c.toLower) :: joinParts false rest

/-- The name in mixed case, such as `LeftParen`. -/
def title (k : Kind) : String :=
  String.ofList (joinParts true k.name.toList)

/-- The kinds of the characters that are a token by themselves, whatever follows. -/
def ofMark? : Char → Option Kind
  | '(' => some leftParen
  | ')' => some rightParen
  | '{' => some leftBrace
  | '}' => some rightBrace
  | ',' => some comma
  | '.' => some dot
  | '-' => some minus
  | '+' => some plus
  | ';' => some semicolon
  | '*' => some star
  | _ => none

/-- The kinds of the characters that also join a `=` behind them: alone, and with it. -/
def ofOperator? : Char → Option (Kind × Kind)
  | '!' => some (bang, bangEqual)
  | '=' => some (equal, equalEqual)
  | '<' => some (less, lessEqual)
  | '>' => some (greater, greaterEqual)
  | _ => none

end Kind

end Lox
