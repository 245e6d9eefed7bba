import Inliner.Source.Parsed

/-!
Writing a source back with some of its statements dropped or replaced.
-/

namespace Inliner

/-- What happens to a statement when it is written. -/
inductive Edit where
  | keep
  | drop
  | replace (text : Text)
deriving DecidableEq, Repr, Inhabited

def isGap (character : Char) : Bool :=
  character == ' ' || character == '\t'

/-- The length of the spaces and tabs at the start of a text, with one semicolon among them. -/
def separatorLength (text : Text) : Nat :=
  let gap := (text.takeWhile isGap).length
  match text.drop gap with
  | ';' :: rest => gap + 1 + (rest.takeWhile isGap).length
  | _ => gap

/-- The offset up to which a dropped statement takes the text after it along: the gap that
follows, and one semicolon in it. -/
def afterDropped (text : Text) (stop offset : Nat) : Nat :=
  offset + separatorLength (Span.slice ⟨offset, stop⟩ text)

/-- The part of a text from an offset up to `stop` with some spans edited. -/
def renderSpans (text : Text) (stop : Nat) : Nat → List (Span × Edit) → Text
  | offset, [] => Span.slice ⟨offset, stop⟩ text
  | offset, (_, .keep) :: rest => renderSpans text stop offset rest
  | offset, (span, .drop) :: rest =>
      Span.slice ⟨offset, span.start⟩ text ++
        renderSpans text stop (afterDropped text stop span.stop) rest
  | offset, (span, .replace new) :: rest =>
      Span.slice ⟨offset, span.start⟩ text ++ new ++ renderSpans text stop span.stop rest

namespace ParsedSource

/-- The spans of the statements of a segment with their edits, which are given by the index of
the statement in the whole source. -/
def editedSpans (source : ParsedSource) (segment : Segment) (edit : Nat → Edit) :
    List (Span × Edit) :=
  (source.segmentStatements segment).zipIdx segment.statements.start |>.map
    fun (statement, index) => (statement.span, edit index)

/-- A segment with its statements edited. If all of them are dropped, only what leads up to them
is left. -/
def renderSegment (source : ParsedSource) (edit : Nat → Edit) (segment : Segment) : Text :=
  let spans := source.editedSpans segment edit
  let leading := segment.leading.slice source.text
  if spans.all (·.2 == .drop) then
    leading
  else
    Text.terminated
      (leading ++ renderSpans source.text segment.body.stop segment.body.start spans)

def renderAt (source : ParsedSource) (edit : Nat → Edit) (index : Nat) : Text :=
  match source.segments[index]? with
  | some segment => source.renderSegment edit segment
  | none => []

def render (source : ParsedSource) (edit : Nat → Edit) : Text :=
  source.segments.flatMap (source.renderSegment edit) ++ source.trailingText

end ParsedSource

end Inliner
