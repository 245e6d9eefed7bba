import Inliner.Text.IdentifierTable
import Inliner.Text.LetterTable

/-!
Which characters make up names: identifiers of source text, and names under which a directory
can be imported.
-/

namespace Inliner.Text

def startsIdentifier (character : Char) : Bool :=
  if character.toNat < 128 then
    character.isAlpha || character == '_'
  else
    identifierStarts.contains character

/-- Whether a character may stand in an identifier after its first character. -/
def continuesIdentifier (character : Char) : Bool :=
  if character.toNat < 128 then
    character.isAlphanum || character == '_'
  else
    identifierParts.contains character

def isLetter (character : Char) : Bool :=
  if character.toNat < 128 then
    character.isAlpha
  else
    letters.contains character

def isLetterOrNumber (character : Char) : Bool :=
  if character.toNat < 128 then
    character.isAlphanum
  else
    letters.contains character || numbers.contains character

/-- Whether a directory of this name can be imported: a letter or an underscore, then letters,
numbers and underscores. -/
def isImportable : List Char → Bool
  | [] => false
  | first :: rest =>
      (first == '_' || isLetter first) && rest.all fun character =>
        character == '_' || isLetterOrNumber character

end Inliner.Text
