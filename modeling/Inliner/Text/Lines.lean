import Inliner.Text.Basic

/-!
Lines of a text. Rows count line feeds from zero; the reported line and column numbers start
at one, and columns count bytes.
-/

namespace Inliner.Text

/-- The lines of a text without their terminators. A line feed ends a line, and one carriage
return right before it belongs to the terminator. -/
def lines : Text → List Text
  | [] => []
  | '\n' :: rest => [] :: lines rest
  | '\r' :: '\n' :: rest => [] :: lines rest
  | character :: rest =>
      match lines rest with
      | [] => [[character]]
      | line :: more => (character :: line) :: more

def rowAt (text : Text) (offset : Nat) : Nat :=
  (text.take offset).count '\n'

def columnAt (text : Text) (offset : Nat) : Nat :=
  ((text.take offset).reverse.takeWhile (· ≠ '\n')).length

def byteColumnAt (text : Text) (offset : Nat) : Nat :=
  byteSize ((text.take offset).reverse.takeWhile (· ≠ '\n'))

/-- The offsets at which the rows after the current one start, where the current offset is
`offset`. -/
def rowStartsFrom (offset : Nat) : Text → List Nat
  | [] => []
  | character :: rest =>
      if character = '\n' then
        (offset + 1) :: rowStartsFrom (offset + 1) rest
      else
        rowStartsFrom (offset + 1) rest

def rowStarts (text : Text) : List Nat :=
  0 :: rowStartsFrom 0 text

/-- The offset at which a row starts, or the length of the text past its last row. -/
def rowStart (text : Text) (row : Nat) : Nat :=
  (rowStarts text).getD row text.length

end Inliner.Text
