import Inliner.Syntax.Grammar

/-!
String literals. Their text matters only in that it has to be read to find where they end and
where their replacement fields start.
-/

namespace Inliner.Syntax

open Inliner.Syntax.Parser

def isHexDigit (character : Char) : Bool :=
  character.isDigit || ('a' ≤ character && character ≤ 'f') || ('A' ≤ character && character ≤ 'F')

/-- The length of `count` hexadecimal digits after a mark; zero if there are fewer. -/
def hexEscapeLength (count : Nat) (digits : Text) : Nat :=
  if (digits.take count).length = count && (digits.take count).all isHexDigit then 1 + count else 0

/-- The length of what a backslash escapes; zero if it stands for itself. -/
def escapeLength : Text → Nat
  | [] => 0
  | 'u' :: digits => hexEscapeLength 4 digits
  | 'U' :: digits => hexEscapeLength 8 digits
  | 'x' :: digits => hexEscapeLength 2 digits
  | '\r' :: '\n' :: _ => 2
  | 'N' :: '\x7b' :: name =>
      let letters := (name.takeWhile (· ≠ '\x7d')).length
      if letters = 0 || letters = name.length then 0 else letters + 3
  | character :: rest =>
      if character.isDigit then
        ((character :: rest).take 3 |>.takeWhile Char.isDigit).length
      else if character ∈ ['\n', '\'', '"', 'a', 'b', 'f', 'r', 'n', 't', 'v', '\\'] then
        1
      else
        0

def lineBreakLength : Text → Nat
  | '\r' :: '\n' :: _ => 2
  | '\r' :: _ | '\n' :: _ => 1
  | _ => 0

/-- The length of what a backslash in a raw string protects. -/
def rawEscapeLength (closing : Char) : Text → Nat
  | [] => 0
  | character :: rest =>
      if character = closing || character = '\\' then
        1 + lineBreakLength rest
      else
        lineBreakLength (character :: rest)

/-- Where a stretch of string content ends. -/
inductive ContentEnd where
  | closed
  | field
deriving DecidableEq, Repr

/-- Reads the content of a string literal up to and including what ends it, and gives the number
of characters read. `skip` characters are passed over first. `filled` tells whether something
stands before this place since the last escape or field: only then does a line break make a
literal in single quotation marks invalid. -/
def contentLength (style : StringStyle) (skip : Nat) (filled : Bool) (read : Nat) :
    Text → Option (Nat × ContentEnd)
  | [] => none
  | character :: rest =>
      match skip with
      | skip + 1 => contentLength style skip filled (read + 1) rest
      | 0 =>
          if character = '\x00' then
            none
          else if style.format && character = '\x7b' then
            if rest.head? = some '\x7b' then
              contentLength style 1 false (read + 1) rest
            else
              some (read + 1, .field)
          else if style.format && character = '\x7d' then
            if rest.head? = some '\x7d' then
              contentLength style 1 false (read + 1) rest
            else
              none
          else if character = '\\' then
            if style.raw then
              contentLength style (rawEscapeLength style.closing rest) filled (read + 1) rest
            else if style.bytes && (rest.head?.any (· ∈ ['N', 'u', 'U'])) then
              contentLength style 2 true (read + 1) rest
            else
              contentLength style (escapeLength rest) false (read + 1) rest
          else if character = style.closing then
            if !style.triple then
              some (read + 1, .closed)
            else if rest.take 2 = [style.closing, style.closing] then
              some (read + 3, .closed)
            else if rest.head? = some style.closing then
              contentLength style 1 false (read + 1) rest
            else
              contentLength style 0 false (read + 1) rest
          else if character = '\n' && filled && !style.triple then
            none
          else
            contentLength style 0 true (read + 1) rest

section

variable (self : Grammar)

def stringBody (style : StringStyle) : Parser Tree := do
  collect do
    let cursor ← get
    match contentLength style 0 false 0 cursor.rest with
    | none => failAt cursor.offset
    | some (length, .field) =>
        set (cursor.consume length)
        return some (← self .field)
    | some (length, .closed) =>
        set (cursor.consume length)
        return none

end

end Inliner.Syntax
