import Inliner.Source.Statement

/-!
Segments: whole lines that hold top-level statements, with the comments and blank lines before
them. Statements that share a line share a segment.
-/

namespace Inliner

/-- Whole lines with one or more statements, given by their indices, and the comments and blank
lines that lead up to them. -/
structure Segment where
  leading : Span
  body : Span
  statements : Span
  startLine : Nat
  endLine : Nat
deriving DecidableEq, Repr, Inhabited

namespace Span

/-- The first and the last row of a span of a text; a line feed at its end belongs to the row
that it ends. -/
def rows (span : Span) (text : Text) : Nat × Nat :=
  let first := text.rowAt span.start
  let last := text.rowAt span.stop
  if text.columnAt span.stop = 0 ∧ first < last then (first, last - 1) else (first, last)

end Span

namespace Segment

/-- The segment of a statement that starts a line of its own; what lies before it from
`consumed` on leads up to it. -/
def ofRows (text : Text) (consumed index : Nat) (rows : Nat × Nat) : Segment :=
  let start := text.rowStart rows.1
  let stop := text.rowStart (rows.2 + 1)
  ⟨⟨consumed, start⟩, ⟨start, stop⟩, ⟨index, index + 1⟩, rows.1 + 1, rows.2 + 1⟩

/-- A segment with one more statement on its lines. -/
def extend (text : Text) (segment : Segment) (index : Nat) (rows : Nat × Nat) : Segment :=
  let endLine := max segment.endLine (rows.2 + 1)
  { segment with
    body := ⟨segment.body.start, text.rowStart endLine⟩
    statements := ⟨segment.statements.start, index + 1⟩
    endLine := endLine }

/-- Segments, the last one first, with one more statement. -/
def push (text : Text) (segments : List Segment) (index : Nat) (rows : Nat × Nat) :
    List Segment :=
  match segments with
  | [] => [ofRows text 0 index rows]
  | last :: earlier =>
      if rows.1 < last.endLine then
        extend text last index rows :: earlier
      else
        ofRows text last.body.stop index rows :: last :: earlier

/-- The segments of statements with these spans, the last one first, after those given. -/
def pushAll (text : Text) : List Segment → Nat → List Span → List Segment
  | segments, _, [] => segments
  | segments, index, span :: spans =>
      pushAll text (push text segments index (span.rows text)) (index + 1) spans

def ofSpans (text : Text) (spans : List Span) : List Segment :=
  (pushAll text [] 0 spans).reverse

def stopOf (segments : List Segment) : Nat :=
  (segments.getLast?.map (·.body.stop)).getD 0

end Segment

end Inliner
