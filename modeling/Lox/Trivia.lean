import Lox.Text.Blank

/-!
# Sources without trivia

Blanks and comments can be taken out of a source without cutting it into lexemes: it is enough to
know at each character whether it stands in a string or in a comment.

## Main definitions

* `Mode`: where a character of the source stands
* `strip`: a source without its trivia
-/

namespace Lox

/-- Where a character stands. -/
inductive Mode
  | code
  | string
  | comment
  deriving DecidableEq

/-- What is kept of a text that begins in a mode: strings, and all that is no blank outside of
comments. A comment ends before the line feed. -/
def stripFrom : Mode → List Char → List Char
  | _, [] => []
  | .string, c :: rest => c :: stripFrom (if c = '"' then .code else .string) rest
  | .comment, c :: rest => stripFrom (if c = '\n' then .code else .comment) rest
  | .code, '/' :: '/' :: rest => stripFrom .comment rest
  | .code, c :: rest =>
    if c = '"' then c :: stripFrom .string rest
    else if Text.isBlank c then stripFrom .code rest
    else c :: stripFrom .code rest

/-- **A source without its trivia.** -/
def strip (source : String) : String :=
  String.ofList (stripFrom .code source.toList)

end Lox
