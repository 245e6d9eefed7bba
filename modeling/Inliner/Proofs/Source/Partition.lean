import Inliner.Proofs.Source.Unedited

/-!
# Segments partition a source

What leads up to the segments of a source, their lines and what follows the last one are the text
cut into pieces, each at the end of a line.  The statements are distributed over the segments: each
belongs to one of them, together with those that share its lines.
-/

namespace Inliner

open Syntax

/-! ## Spans without gaps -/

namespace Span

/-- Spans that follow one another without a gap, from an offset up to another one. -/
def Contiguous : Nat → Nat → List Span → Prop
  | lower, upper, [] => lower = upper
  | lower, upper, span :: spans =>
      span.start = lower ∧ span.start ≤ span.stop ∧ Contiguous span.stop upper spans

theorem Contiguous.append
    {lower middle upper : Nat}
    {spans more : List Span}
    (contiguous : Contiguous lower middle spans)
    (further : Contiguous middle upper more) :
    Contiguous lower upper (spans ++ more) := by
  induction spans generalizing lower with
  | nil =>
      obtain rfl : lower = middle := contiguous
      exact further
  | cons span spans inductionHypothesis =>
      obtain ⟨starts, ordered, rest⟩ := contiguous
      exact ⟨starts, ordered, inductionHypothesis rest⟩

end Span

namespace Segment

variable {text : Text} {spans : List Span} {segments : List Segment} {segment : Segment}
variable {index offset reached : Nat}

theorem Tiles.contiguous_pieces (tiles : Tiles text spans segments index offset reached) :
    Span.Contiguous 0 offset
      (segments.reverse.flatMap fun segment => [segment.leading, segment.body]) := by
  induction tiles with
  | nil => rfl
  | cons _ fits inductionHypothesis =>
      have bodyBound := fits.spans_within.le.trans fits.reached_le
      rw [List.reverse_cons, List.flatMap_append, List.flatMap_singleton]
      apply inductionHypothesis.append
      rw [fits.leading_eq]
      exact ⟨rfl, fits.offset_le, rfl, bodyBound, rfl⟩

theorem Tiles.contiguous_numbers (tiles : Tiles text spans segments index offset reached) :
    Span.Contiguous 0 index (segments.reverse.map (·.statements)) := by
  induction tiles with
  | nil => rfl
  | cons _ fits inductionHypothesis =>
      rw [List.reverse_cons, List.map_append]
      apply inductionHypothesis.append
      exact ⟨fits.start_eq, fits.start_eq ▸ fits.start_lt.le, rfl⟩

theorem Tiles.offset_le_length (tiles : Tiles text spans segments index offset reached) :
    offset ≤ text.length := by
  cases tiles with
  | nil => exact Nat.zero_le _
  | cons _ fits =>
      rw [fits.stop_eq]
      exact text.rowStart_le_length _

theorem Tiles.stop_le
    (tiles : Tiles text spans segments index offset reached)
    (member : segment ∈ segments) :
    segment.statements.stop ≤ index := by
  induction tiles with
  | nil => cases member
  | cons _ fits inductionHypothesis =>
      rcases List.mem_cons.mp member with rfl | earlier
      · exact le_refl _
      · exact (inductionHypothesis earlier).trans fits.start_lt.le

end Segment

/-! ## The pieces of a source -/

namespace ParsedSource

/-- The pieces of a source and what they hold. -/
structure Partitions (source : ParsedSource) : Prop where
  pieces : Span.Contiguous 0 source.text.length
    (source.segments.flatMap (fun segment => [segment.leading, segment.body]) ++
      [source.trailing])
  numbers : Span.Contiguous 0 source.statements.length (source.segments.map (·.statements))
  hasStatement : ∀ segment ∈ source.segments,
    segment.statements.start < segment.statements.stop
  held : ∀ number < source.statements.length, ∃! index, source.HoldsStatement index number
  within : ∀ index segment number statement,
    source.segments[index]? = some segment → source.HoldsStatement index number →
      source.statements[number]? = some statement →
        segment.body.start ≤ statement.span.start ∧ statement.span.stop ≤ segment.body.stop
  startsLine : ∀ segment ∈ source.segments,
    Text.EndsLine (source.text.take segment.body.start)
  endsLine : ∀ segment ∈ source.segments,
    segment.body.stop = source.text.length ∨
      Text.EndsLine (source.text.take segment.body.stop)
  linked : ∀ first < source.statements.length, ∀ second < source.statements.length,
    (∃ index, source.HoldsStatement index first ∧ source.HoldsStatement index second) ↔
      Relation.ReflTransGen (SharesRow source.text (source.statements.map (·.span)))
        first second
  rendered : source.render (fun _ => .keep) =
    if source.Unterminated then source.text ++ ['\n'] else source.text

variable {text : Text} {nodes : List Node}

theorem partitions_ofNodes (lays : Lays text nodes) : (ofNodes text nodes).Partitions := by
  obtain ⟨offset, reached, tiles⟩ := Segment.tiles_ofSpans lays.spans
  have count : (ofNodes text nodes).statements.length = nodes.length := by simp [ofNodes]
  have fitting : ∀ segment ∈ (ofNodes text nodes).segments,
      ∃ start before last, segment.Fits text (nodes.map (·.span)) start before last :=
    fun segment member => tiles.exists_fits (List.mem_reverse.mpr member)
  refine ⟨?_, ?_, ?_, ?_, ?_, ?_, ?_, ?_, render_of_keep lays (fun _ => rfl)⟩
  · have stop := tiles.stopOf_reverse
    have pieces := tiles.contiguous_pieces
    rw [List.reverse_reverse] at stop pieces
    have bound := tiles.offset_le_length
    rw [← stop] at bound
    exact pieces.append ⟨stop, bound, rfl⟩
  · have numbers := tiles.contiguous_numbers
    rw [List.reverse_reverse, List.length_map, ← count] at numbers
    exact numbers
  · intro segment member
    obtain ⟨start, before, last, fits⟩ := fitting segment member
    rw [fits.start_eq]
    exact fits.start_lt
  · intro number known
    rw [count] at known
    obtain ⟨index, holds⟩ := exists_holdsStatement lays known
    exact ⟨index, holds, fun other otherHolds => holdsStatement_unique lays known otherHolds holds⟩
  · intro index segment number statement found holds isStatement
    have inSegments := List.mem_of_getElem? found
    have inSegment : statement ∈ (ofNodes text nodes).segmentStatements segment := by
      have held := mem_statementsOf_iff.mpr ⟨number, holds, isStatement⟩
      rw [statementsOf, found] at held
      exact held
    have within := spansWithin_segmentStatements lays inSegments
    have member := List.mem_map_of_mem (f := (·.span)) inSegment
    exact ⟨(within.of_mem member).1, (within.ordered_of_mem member).2⟩
  · intro segment member
    obtain ⟨start, before, last, fits⟩ := fitting segment member
    have known := tiles.stop_le (List.mem_reverse.mpr member)
    have firstFound := List.getElem?_eq_getElem (Nat.lt_of_lt_of_le fits.start_lt known)
    rw [fits.body_start _ firstFound]
    exact Text.endsLine_take_rowStart (text.rowAt_le_count _)
  · intro segment member
    obtain ⟨start, before, last, fits⟩ := fitting segment member
    rw [fits.stop_eq]
    by_cases known : segment.endLine ≤ text.count '\n'
    · exact Or.inr (Text.endsLine_take_rowStart known)
    · exact Or.inl (Text.rowStart_of_count_lt (Nat.lt_of_not_le known))
  · intro first firstKnown second secondKnown
    rw [count] at firstKnown secondKnown
    rw [map_span_statements]
    exact sameSegment_iff lays firstKnown secondKnown

/-- The segments of an analysed text partition it and its statements. -/
theorem parse_partitions_text
    {source : ParsedSource}
    (parsed : parse text = .ok source) :
    source.text = text ∧ source.Partitions := by
  obtain ⟨nodes, rfl, lays⟩ := exists_nodes_of_parse parsed
  exact ⟨rfl, partitions_ofNodes lays⟩

/-- Statements on three lines that are linked by shared ones, a statement below a comment, and no
line feed at the end. -/
def linkedLines : Text :=
  "# top\nx = (1,\n  2); y = 3; z = (4,\n  5)\n\n# last\nw = 6  # end".toList

theorem parse_linkedLines_partitions :
    ∃ source,
      parse linkedLines = .ok source ∧ source.Partitions ∧
      source.segments.map (·.statements) = [⟨0, 3⟩, ⟨3, 4⟩] ∧
      Relation.ReflTransGen (SharesRow source.text (source.statements.map (·.span))) 0 2 ∧
      source.render (fun _ => .keep) = linkedLines ++ ['\n'] := by
  have facts : ∃ source,
      parse linkedLines = .ok source ∧
      source.segments.map (·.statements) = [⟨0, 3⟩, ⟨3, 4⟩] ∧
      source.statements.length = 4 ∧
      source.Unterminated ∧
      source.HoldsStatement 0 0 ∧ source.HoldsStatement 0 2 :=
    ⟨(parse linkedLines).toOption.getD default, by decide +kernel⟩
  obtain ⟨source, parsed, segments, count, unterminated, firstHeld, lastHeld⟩ := facts
  obtain ⟨sameText, partitions⟩ := parse_partitions_text parsed
  have chain := (partitions.linked 0 (by omega) 2 (by omega)).mp ⟨0, firstHeld, lastHeld⟩
  have rendered := partitions.rendered
  rw [if_pos unterminated, sameText] at rendered
  exact ⟨source, parsed, partitions, segments, chain, rendered⟩

end ParsedSource

end Inliner
