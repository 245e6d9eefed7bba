import Inliner.Syntax.Program

/-!
The reported place of a syntax error: the token without which the program is in order, or the
place where a closing bracket is missing, or else the start of the statement that is broken. A
parser that recovers from errors reports the first error node or missing node of its tree; what is
found here by trial edits comes close to that place and is not always the same.
-/

namespace Inliner.Syntax

def isProgram (text : Text) : Bool :=
  match parseStatements text with
  | .ok _ => true
  | .error _ => false

def withoutToken (text : Text) (offset : Nat) : Text :=
  let rest := text.drop offset
  let length := (tokenAt true rest).2
  text.take offset ++ List.replicate length ' ' ++ rest.drop length

def withCharacter (text : Text) (offset : Nat) (character : Char) : Text :=
  text.take offset ++ character :: text.drop offset

/-- The offset at which a syntax error is reported: an approximation of the first error node or
missing node that a recovering parser would leave in its tree. -/
def Fault.reported (fault : Fault) (text : Text) : Nat :=
  if isProgram (withoutToken text fault.token) then
    fault.token
  else if [')', ']', '\x7d'].any fun bracket =>
      isProgram (withCharacter text fault.previous bracket) then
    fault.previous
  else
    fault.statement

end Inliner.Syntax
