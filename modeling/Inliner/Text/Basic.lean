/-!
Texts and spans. A text is a list of characters, so that every function on it is a plain
recursion; offsets count characters, and `byteOffset` gives the same place in bytes of UTF-8.
-/

namespace Inliner

/-- A text, one entry for each character. -/
abbrev Text := List Char

/-- A stretch of a text from the offset `start` up to the offset `stop`, which is left out. -/
structure Span where
  start : Nat
  stop : Nat
deriving DecidableEq, Repr, Inhabited

namespace Span

def slice (span : Span) (text : Text) : Text :=
  (text.drop span.start).take (span.stop - span.start)

end Span

namespace Text

def byteSize : Text → Nat
  | [] => 0
  | character :: rest => character.utf8Size + byteSize rest

def byteOffset (text : Text) (offset : Nat) : Nat :=
  byteSize (text.take offset)

/-- A text without a given beginning, if it starts with it. -/
def withoutStart? (start : Text) (text : Text) : Option Text :=
  if start.isPrefixOf text then some (text.drop start.length) else none

/-- A text with one line feed added unless it already ends with one. -/
def terminated (text : Text) : Text :=
  if text.getLast? = some '\n' then text else text ++ ['\n']

/-- A text cut at every occurrence of a separator. -/
def splitAt (separator : Char) : Text → List Text
  | [] => [[]]
  | character :: rest =>
      if character = separator then
        [] :: splitAt separator rest
      else
        match splitAt separator rest with
        | [] => [[character]]
        | piece :: pieces => (character :: piece) :: pieces

def joinWith (separator : Text) : List Text → Text
  | [] => []
  | [piece] => piece
  | piece :: next :: pieces => piece ++ separator ++ joinWith separator (next :: pieces)

end Text

end Inliner
