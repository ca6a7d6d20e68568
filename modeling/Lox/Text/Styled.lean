/-!
# Styled text

A text for a terminal is a list of plain pieces and changes of style. It is written with the
changes as control sequences, or without them.

## Main definitions

* `Style`, `Style.code`: the styles and their control sequences
* `Piece`: a piece of text, or a change of style
* `write coloured pieces`: the whole text

## Main results

* `write_append`: texts are written piece by piece
* `write_style_cons`: without colours no change of style is written
-/

namespace Lox.Text

/-- The styles of a terminal. Every colour is bold, and `reset` goes back to the default. -/
inductive Style
  | reset
  | bold
  | red
  | green
  | yellow
  | blue
  deriving DecidableEq

/-- The control sequence that changes to a style. -/
def Style.code : Style → String
  | reset => "\x1b[0m"
  | bold => "\x1b[1m"
  | red => "\x1b[1;31m"
  | green => "\x1b[1;32m"
  | yellow => "\x1b[1;33m"
  | blue => "\x1b[1;34m"

/-- A piece of styled text. -/
inductive Piece
  | style (style : Style)
  | plain (text : String)
  deriving DecidableEq

/-- A piece as it is written: a change of style is empty without colours. -/
def Piece.write (coloured : Bool) : Piece → String
  | style s => if coloured then s.code else ""
  | plain text => text

/-- A styled text as it is written. -/
def write (coloured : Bool) (pieces : List Piece) : String :=
  String.join (pieces.map (Piece.write coloured))

@[simp] theorem write_nil (coloured : Bool) : write coloured [] = "" := rfl

theorem write_append (coloured : Bool) (ps qs : List Piece) :
    write coloured (ps ++ qs) = write coloured ps ++ write coloured qs := by
  simp [write]

@[simp] theorem write_plain_cons (coloured : Bool) (text : String) (ps : List Piece) :
    write coloured (.plain text :: ps) = text ++ write coloured ps := by
  simp [write, Piece.write]

/-- **Without colours no change of style is written.** -/
@[simp] theorem write_style_cons (style : Style) (ps : List Piece) :
    write false (.style style :: ps) = write false ps := by
  simp [write, Piece.write]

end Lox.Text
