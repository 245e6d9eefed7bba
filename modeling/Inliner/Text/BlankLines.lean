import Inliner.Text.Blank
import Inliner.Text.Lines

/-!
Blank-line normal form: lines of white space are emptied, runs of them shrink to one, none
stands at either end, and every line is terminated.
-/

namespace Inliner.Text

/-- Writes lines with at most one empty line between two of them. `started` tells whether a
line has been written before, and `gap` whether a blank line has been seen since. -/
def writeLines (started gap : Bool) : List Text → Text
  | [] => []
  | line :: rest =>
      if isBlank line then
        writeLines started started rest
      else
        (if gap then ['\n'] else []) ++ line ++ '\n' :: writeLines true false rest

/-- The blank-line normal form of a text; a text of blank lines only becomes one line feed. -/
def normalizeBlankLines (text : Text) : Text :=
  match writeLines false false (lines text) with
  | [] => ['\n']
  | written => written

end Inliner.Text
