import Inliner.Proofs.Source.Spans
import Mathlib.Data.List.Nodup

/-!
# Segments tile the statements

A segment consists of whole lines.  The lines of a segment hold its statements in full, the
statements of the segments follow one another, and what leads up to a segment starts where the one
before it ends.
-/

namespace Inliner

open Syntax

/-! ## Rows -/

namespace Text

/-- The row after the one of an offset starts after the offset, or the text ends. -/
theorem le_getD_rowStartsFrom
    (text : Text)
    (offset count final : Nat)
    (bound : offset + text.length ≤ final) :
    offset + min (count + 1) text.length ≤
      (rowStartsFrom offset text).getD ((text.take count).count '\n') final := by
  induction text generalizing offset count with
  | nil => simpa [rowStartsFrom] using bound
  | cons first rest inductionHypothesis =>
      simp only [List.length_cons] at bound ⊢
      by_cases newline : first = '\n'
      · subst newline
        cases count with
        | zero => simp [rowStartsFrom]
        | succ count =>
            have further := inductionHypothesis (offset + 1) count (by omega)
            simp only [rowStartsFrom, ↓reduceIte, List.take_succ_cons, List.count_cons_self,
              List.getD_cons_succ]
            omega
      · cases count with
        | zero =>
            have further := inductionHypothesis (offset + 1) 0 (by omega)
            simp only [rowStartsFrom, newline, ↓reduceIte, List.take_zero,
              List.count_nil] at further ⊢
            omega
        | succ count =>
            have further := inductionHypothesis (offset + 1) count (by omega)
            simp only [rowStartsFrom, newline, ↓reduceIte, List.take_succ_cons,
              List.count_cons_of_ne newline]
            omega

/-- The row of an offset does not start after it. -/
theorem getD_rowStartsFrom_le
    (text : Text)
    (base offset count final : Nat)
    (bound : base ≤ offset) :
    (base :: rowStartsFrom offset text).getD ((text.take count).count '\n') final ≤
      offset + count := by
  induction text generalizing base offset count with
  | nil => simp; omega
  | cons first rest inductionHypothesis =>
      cases count with
      | zero => simpa using bound
      | succ count =>
          by_cases newline : first = '\n'
          · subst newline
            have further := inductionHypothesis (offset + 1) (offset + 1) count (le_refl _)
            simp only [rowStartsFrom, ↓reduceIte, List.take_succ_cons, List.count_cons_self,
              List.getD_cons_succ]
            omega
          · have further := inductionHypothesis base (offset + 1) count (by omega)
            simp only [rowStartsFrom, newline, ↓reduceIte, List.take_succ_cons,
              List.count_cons_of_ne newline]
            omega

/-- Rows start one after the other. -/
theorem getD_rowStartsFrom_mono
    (text : Text)
    (base offset row final : Nat)
    (baseBound : base ≤ offset)
    (bound : offset + text.length ≤ final) :
    (base :: rowStartsFrom offset text).getD row final ≤
      (base :: rowStartsFrom offset text).getD (row + 1) final := by
  induction text generalizing base offset row with
  | nil => cases row <;> simp [rowStartsFrom] at bound ⊢; omega
  | cons first rest inductionHypothesis =>
      cases row with
      | zero =>
          have next := le_getD_rowStartsFrom (first :: rest) offset 0 final bound
          simp only [List.take_zero, List.count_nil] at next
          simp only [List.getD_cons_zero, List.getD_cons_succ]
          omega
      | succ row =>
          simp only [List.length_cons] at bound
          by_cases newline : first = '\n'
          · simpa [rowStartsFrom, newline] using
              inductionHypothesis (offset + 1) (offset + 1) row (le_refl _) (by omega)
          · simpa [rowStartsFrom, newline] using
              inductionHypothesis base (offset + 1) (row + 1) (by omega) (by omega)

/-- The row after a line feed starts right after it. -/
theorem le_getD_of_getLast
    (text : Text)
    (offset count final : Nat)
    (inText : count ≤ text.length)
    (ends : ∀ last, (text.take count).getLast? = some last → last = '\n') :
    offset + count ≤
      (offset :: rowStartsFrom offset text).getD ((text.take count).count '\n') final := by
  induction text generalizing offset count with
  | nil =>
      have none : count = 0 := by simpa using inText
      simp [none]
  | cons first rest inductionHypothesis =>
      cases count with
      | zero => simp
      | succ count =>
          simp only [List.length_cons, Nat.add_le_add_iff_right] at inText
          have restEnds : ∀ last, (rest.take count).getLast? = some last → last = '\n' := by
            intro last isLast
            apply ends last
            simp [List.getLast?_cons, isLast]
          have further := inductionHypothesis (offset + 1) count inText restEnds
          by_cases newline : first = '\n'
          · subst newline
            simp only [rowStartsFrom, ↓reduceIte, List.take_succ_cons, List.count_cons_self,
              List.getD_cons_succ]
            omega
          · -- The line feed at the end stands in the rest, so the row does not start here.
            have someFeed : '\n' ∈ rest.take count := by
              cases isLast : (rest.take count).getLast? with
              | none =>
                  have only := ends first (by simp [List.getLast?_cons, isLast])
                  exact absurd only newline
              | some last =>
                  rw [← restEnds last isLast]
                  exact List.mem_of_getLast? isLast
            obtain ⟨feeds, feedCount⟩ :=
              Nat.exists_eq_succ_of_ne_zero (List.count_pos_iff.mpr someFeed).ne'
            simp only [rowStartsFrom, newline, ↓reduceIte, List.take_succ_cons,
              List.count_cons_of_ne newline, feedCount, List.getD_cons_succ] at further ⊢
            omega

theorem rowStart_mono
    (text : Text)
    {row later : Nat}
    (ordered : row ≤ later) :
    text.rowStart row ≤ text.rowStart later := by
  induction ordered with
  | refl => exact le_refl _
  | step _ inductionHypothesis =>
      refine inductionHypothesis.trans ?_
      exact getD_rowStartsFrom_mono text 0 0 _ _ (le_refl _) (by simp)

theorem rowStart_rowAt_le (text : Text) (offset : Nat) :
    text.rowStart (text.rowAt offset) ≤ offset := by
  have bound := getD_rowStartsFrom_le text 0 0 offset text.length (le_refl _)
  rwa [Nat.zero_add] at bound

theorem min_le_rowStart_rowAt_succ (text : Text) (offset : Nat) :
    min (offset + 1) text.length ≤ text.rowStart (text.rowAt offset + 1) := by
  have bound := le_getD_rowStartsFrom text 0 offset text.length (by simp)
  rwa [Nat.zero_add] at bound

theorem le_rowStart_rowAt_of_columnAt
    {text : Text}
    {offset : Nat}
    (inText : offset ≤ text.length)
    (column : text.columnAt offset = 0) :
    offset ≤ text.rowStart (text.rowAt offset) := by
  have ends : ∀ last, (text.take offset).getLast? = some last → last = '\n' := by
    intro last isLast
    by_contra notFeed
    obtain ⟨before, taken⟩ := List.getLast?_eq_some_iff.mp isLast
    simp [columnAt, taken, notFeed] at column
  have bound := le_getD_of_getLast text 0 offset text.length inText ends
  rwa [Nat.zero_add] at bound

theorem rowAt_mono
    (text : Text)
    {offset later : Nat}
    (ordered : offset ≤ later) :
    text.rowAt offset ≤ text.rowAt later := by
  obtain ⟨more, rfl⟩ := Nat.exists_eq_add_of_le ordered
  rw [rowAt, rowAt, List.take_add, List.count_append]
  exact Nat.le_add_right _ _

theorem rowAt_succ
    {text : Text}
    {offset : Nat}
    (feed : text[offset]? = some '\n') :
    text.rowAt (offset + 1) = text.rowAt offset + 1 := by
  rw [rowAt, rowAt, List.take_add_one, feed, List.count_append]
  rfl

/-- A line of code after a comment at the beginning of a text starts after the comment. -/
theorem commentLength_le_rowStart
    {text : Text}
    {offset : Nat}
    (afterComment : commentLength text ≤ offset)
    (starts : StartsCode text offset) :
    commentLength text ≤ text.rowStart (text.rowAt offset) := by
  have inText := starts.lt_length
  unfold commentLength at afterComment ⊢
  split
  next rest =>
    simp only at afterComment
    have split := List.takeWhile_append_dropWhile (p := (· ≠ '\n')) (l := '#' :: rest)
    generalize ('#' :: rest).takeWhile (· ≠ '\n') = comment at split afterComment ⊢
    have feed : ('#' :: rest)[comment.length]? = some '\n' := by
      cases dropped : ('#' :: rest).dropWhile (· ≠ '\n') with
      | nil =>
          rw [dropped, List.append_nil] at split
          rw [split] at afterComment
          omega
      | cons first more =>
          have stops := List.head?_dropWhile_not (· ≠ '\n') ('#' :: rest)
          simp only [dropped, List.head?_cons, decide_eq_false_iff_not, not_not] at stops
          rw [← split, dropped, List.getElem?_append_right (le_refl _), stops]
          simp
    have different : comment.length ≠ offset := by
      rintro rfl
      have code := (starts.of_getElem? feed).1
      cases code
    have laterRow : rowAt ('#' :: rest) comment.length + 1 ≤ rowAt ('#' :: rest) offset := by
      rw [← rowAt_succ feed]
      exact rowAt_mono _ (by omega)
    have rowBound := min_le_rowStart_rowAt_succ ('#' :: rest) comment.length
    have laterStart := rowStart_mono ('#' :: rest) laterRow
    omega
  next => exact Nat.zero_le _

end Text

namespace Span

theorem rows_fst (span : Span) (text : Text) :
    (span.rows text).1 = text.rowAt span.start := by
  unfold rows
  dsimp only
  split <;> rfl

/-- The rows of a span hold it in full. -/
theorem rowStart_rows_le (span : Span) (text : Text) :
    text.rowStart (span.rows text).1 ≤ span.start := by
  rw [rows_fst]
  exact text.rowStart_rowAt_le span.start

theorem le_rowStart_rows
    (span : Span)
    {text : Text}
    (inText : span.stop ≤ text.length) :
    span.stop ≤ text.rowStart ((span.rows text).2 + 1) := by
  unfold rows
  dsimp only
  split
  next atStart =>
    have next := Text.le_rowStart_rowAt_of_columnAt inText atStart.1
    rwa [Nat.sub_add_cancel (by omega)]
  next =>
    have next := text.min_le_rowStart_rowAt_succ span.stop
    dsimp only
    omega

end Span

/-! ## Segments and their statements -/

namespace Span

/-- The entries of a list with the numbers in a span. -/
def entries {α : Type} (span : Span) (items : List α) : List α :=
  (items.drop span.start).take (span.stop - span.start)

theorem entries_succ
    {α : Type}
    {items : List α}
    {item : α}
    {start stop : Nat}
    (ordered : start ≤ stop)
    (next : items[stop]? = some item) :
    entries ⟨start, stop + 1⟩ items = entries ⟨start, stop⟩ items ++ [item] := by
  simp only [entries]
  rw [Nat.succ_sub ordered, List.take_add_one, List.getElem?_drop, Nat.add_sub_cancel' ordered,
    next]
  rfl

theorem entries_map
    {α β : Type}
    (span : Span)
    (items : List α)
    (f : α → β) :
    span.entries (items.map f) = (span.entries items).map f := by
  rw [entries, entries, List.map_take, List.map_drop]

theorem entries_zipIdx
    {α : Type}
    (span : Span)
    (items : List α) :
    span.entries items.zipIdx = (span.entries items).zipIdx span.start := by
  apply List.ext_getElem?
  intro index
  simp only [entries, List.getElem?_take, List.getElem?_drop, List.getElem?_zipIdx, Nat.zero_add]
  split <;> simp

theorem mem_entries_iff
    {α : Type} {span : Span} {items : List α} {item : α} :
    item ∈ span.entries items ↔
      ∃ number, span.start ≤ number ∧ number < span.stop ∧ items[number]? = some item := by
  simp only [entries, List.mem_iff_getElem?, List.getElem?_take, List.getElem?_drop]
  constructor
  · rintro ⟨offset, found⟩
    split at found
    next inSpan => exact ⟨span.start + offset, by omega, by omega, found⟩
    next => cases found
  · rintro ⟨number, lower, upper, found⟩
    refine ⟨number - span.start, ?_⟩
    rw [if_pos (by omega), Nat.add_sub_cancel' lower]
    exact found

theorem mem_entries_range_iff {span : Span} {count number : Nat} :
    number ∈ span.entries (List.range count) ↔
      span.start ≤ number ∧ number < span.stop ∧ number < count := by
  simp only [mem_entries_iff, List.getElem?_eq_some_iff, List.getElem_range, List.length_range]
  constructor
  · rintro ⟨_, lower, upper, known, rfl⟩
    exact ⟨lower, upper, known⟩
  · rintro ⟨lower, upper, known⟩
    exact ⟨number, lower, upper, known, rfl⟩

end Span

namespace Segment

/-- A segment continues those before it: they hold the statements before the number `start` and
end at `offset`.  Its last statement ends at `reached`. -/
structure Fits (text : Text) (spans : List Span) (start offset reached : Nat)
    (segment : Segment) : Prop where
  start_eq : segment.statements.start = start
  start_lt : start < segment.statements.stop
  leading_eq : segment.leading = ⟨offset, segment.body.start⟩
  offset_le : offset ≤ segment.body.start
  stop_eq : segment.body.stop = text.rowStart segment.endLine
  body_start : ∀ span, spans[start]? = some span →
    segment.body.start = text.rowStart (text.rowAt span.start)
  spans_within : SpansWithin text segment.body.start reached (segment.statements.entries spans)
  reached_le : reached ≤ segment.body.stop

/-- Segments, the last one first, hold the statements before the number `index`.  They end at
`offset`, and the last statement ends at `reached`. -/
inductive Tiles (text : Text) (spans : List Span) : List Segment → Nat → Nat → Nat → Prop where
  | nil : Tiles text spans [] 0 0 0
  | cons {earlier : List Segment} {segment : Segment} {start offset before reached : Nat} :
      Tiles text spans earlier start offset before →
        segment.Fits text spans start offset reached →
          Tiles text spans (segment :: earlier)
            segment.statements.stop segment.body.stop reached

variable {text : Text} {spans : List Span} {segments : List Segment}

/-- A statement that starts a line of its own makes a segment. -/
theorem fits_ofRows
    {index offset : Nat}
    {span : Span}
    (next : spans[index]? = some span)
    (ordered : span.start ≤ span.stop)
    (inText : span.stop ≤ text.length)
    (starts : StartsCode text span.start)
    (newLine : offset ≤ text.rowStart (span.rows text).1) :
    (ofRows text offset index (span.rows text)).Fits text spans index offset span.stop where
  start_eq := rfl
  start_lt := Nat.lt_succ_self index
  leading_eq := rfl
  offset_le := newLine
  stop_eq := rfl
  body_start := by
    intro other found
    rw [next] at found
    rw [← Option.some.inj found, ← span.rows_fst text]
    rfl
  spans_within := by
    have only := Span.entries_succ (le_refl index) next
    simp only [Span.entries, Nat.sub_self, List.take_zero, List.nil_append] at only
    simp only [Span.entries, ofRows, only]
    exact .cons (span.rowStart_rows_le text) ordered starts (.nil (le_refl _))
  reached_le := span.le_rowStart_rows inText

/-- A statement that goes on with the last line of a segment belongs to the segment. -/
theorem fits_extend
    {start offset reached : Nat}
    {span : Span}
    {segment : Segment}
    (fits : segment.Fits text spans start offset reached)
    (next : spans[segment.statements.stop]? = some span)
    (after : reached ≤ span.start)
    (ordered : span.start ≤ span.stop)
    (inText : span.stop ≤ text.length)
    (starts : StartsCode text span.start) :
    (extend text segment segment.statements.stop (span.rows text)).Fits
      text spans start offset span.stop where
  start_eq := fits.start_eq
  start_lt := Nat.lt_succ_of_lt fits.start_lt
  leading_eq := fits.leading_eq
  offset_le := fits.offset_le
  stop_eq := rfl
  body_start := fits.body_start
  spans_within := by
    have numbered : segment.statements.start ≤ segment.statements.stop :=
      fits.start_eq ▸ fits.start_lt.le
    have more := Span.entries_succ numbered next
    simp only [extend, more]
    exact fits.spans_within.append (.cons after ordered starts (.nil (le_refl _)))
  reached_le := by
    refine (span.le_rowStart_rows inText).trans ?_
    exact text.rowStart_mono (Nat.le_max_right _ _)

/-- One more statement keeps the segments tiling. -/
theorem Tiles.push
    {index offset reached : Nat}
    {span : Span}
    (tiles : Tiles text spans segments index offset reached)
    (next : spans[index]? = some span)
    (after : reached ≤ span.start)
    (ordered : span.start ≤ span.stop)
    (inText : span.stop ≤ text.length)
    (starts : StartsCode text span.start) :
    ∃ further, Tiles text spans
      (push text segments index (span.rows text)) (index + 1) further span.stop := by
  cases tiles with
  | nil => exact ⟨_, .cons .nil (fits_ofRows next ordered inText starts (Nat.zero_le _))⟩
  | @cons earlier segment start offset before _ earlierTiles fits =>
      unfold push
      dsimp only
      split
      next sameLine =>
        exact ⟨_, .cons earlierTiles (fits_extend fits next after ordered inText starts)⟩
      next newLine =>
        have bound : segment.body.stop ≤ text.rowStart (span.rows text).1 := by
          rw [fits.stop_eq]
          exact text.rowStart_mono (by omega)
        exact ⟨_, .cons (.cons earlierTiles fits) (fits_ofRows next ordered inText starts bound)⟩

theorem Tiles.pushAll
    {index offset reached : Nat}
    {rest : List Span}
    (tiles : Tiles text spans segments index offset reached)
    (remaining : spans.drop index = rest)
    (within : SpansWithin text reached text.length rest) :
    ∃ further last, Tiles text spans
      (pushAll text segments index rest) (index + rest.length) further last := by
  induction rest generalizing segments index offset reached with
  | nil => exact ⟨_, _, tiles⟩
  | cons span rest inductionHypothesis =>
      cases within with
      | cons startBound spanBound starts restWithin =>
          have next : spans[index]? = some span := by
            rw [← List.head?_drop, remaining]
            rfl
          have restRemaining : spans.drop (index + 1) = rest := by
            rw [← List.drop_drop, remaining]
            rfl
          obtain ⟨further, pushed⟩ :=
            tiles.push next startBound spanBound restWithin.le starts
          have result := inductionHypothesis pushed restRemaining restWithin
          rwa [List.length_cons, Nat.add_comm rest.length 1, ← Nat.add_assoc]

/-- The segments of statements that stand in order tile them. -/
theorem tiles_ofSpans
    {lower : Nat}
    (within : SpansWithin text lower text.length spans) :
    ∃ offset reached,
      Tiles text spans (ofSpans text spans).reverse spans.length offset reached := by
  have tiles := Tiles.nil.pushAll (List.drop_zero : spans.drop 0 = spans)
    (within.mono (Nat.zero_le _) (le_refl _))
  simpa [ofSpans] using tiles

theorem Tiles.exists_fits
    {index offset reached : Nat}
    {segment : Segment}
    (tiles : Tiles text spans segments index offset reached)
    (member : segment ∈ segments) :
    ∃ start before last, segment.Fits text spans start before last := by
  induction tiles with
  | nil => simp at member
  | cons _ fits inductionHypothesis =>
      rcases List.mem_cons.mp member with rfl | earlier
      · exact ⟨_, _, _, fits⟩
      · exact inductionHypothesis earlier

/-- Every statement belongs to one segment, in the order of the segments. -/
theorem Tiles.flatMap_entries
    {α : Type}
    {index offset reached : Nat}
    (tiles : Tiles text spans segments index offset reached)
    (items : List α) :
    segments.reverse.flatMap (·.statements.entries items) = items.take index := by
  induction tiles with
  | nil => simp
  | cons _ fits inductionHypothesis =>
      rw [List.reverse_cons, List.flatMap_append, inductionHypothesis, List.flatMap_singleton,
        Span.entries, fits.start_eq, ← List.take_add, Nat.add_sub_cancel' fits.start_lt.le]

/-- The first segment starts with the text and holds the first statement. -/
theorem Tiles.fits_of_getLast?
    {index offset reached : Nat}
    {segment : Segment}
    (tiles : Tiles text spans segments index offset reached)
    (first : segments.getLast? = some segment) :
    ∃ last, segment.Fits text spans 0 0 last := by
  induction tiles with
  | nil => simp at first
  | @cons earlier other start offset before reached earlierTiles fits inductionHypothesis =>
      cases earlierTiles with
      | nil =>
          simp only [List.getLast?_singleton, Option.some.injEq] at first
          rw [← first]
          exact ⟨_, fits⟩
      | cons earliest earliestFits =>
          rw [List.getLast?_cons_cons] at first
          exact inductionHypothesis first

end Segment

/-! ## The segments of a source -/

namespace ParsedSource

variable {text : Text} {nodes : List Node}

theorem map_span_statements (text : Text) (nodes : List Node) :
    (ofNodes text nodes).statements.map (·.span) = nodes.map (·.span) := by
  simp [ofNodes, Node.statement, Function.comp_def]

/-- The lines of a segment hold its statements in full and in order. -/
theorem spansWithin_segmentStatements
    (lays : Lays text nodes)
    {segment : Segment}
    (member : segment ∈ (ofNodes text nodes).segments) :
    SpansWithin text segment.body.start segment.body.stop
      (((ofNodes text nodes).segmentStatements segment).map (·.span)) := by
  obtain ⟨offset, reached, tiles⟩ := Segment.tiles_ofSpans lays.spans
  obtain ⟨start, before, last, fits⟩ := tiles.exists_fits (List.mem_reverse.mpr member)
  have within := fits.spans_within.mono (le_refl _) fits.reached_le
  rwa [← map_span_statements text nodes, Span.entries, ← List.map_drop, ← List.map_take] at within

/-- Entries for the statements of the segments are those for all statements, in order. -/
theorem flatMap_entries_segments
    {α : Type}
    (lays : Lays text nodes)
    (items : List α)
    (length : items.length = nodes.length) :
    (ofNodes text nodes).segments.flatMap (·.statements.entries items) = items := by
  obtain ⟨offset, reached, tiles⟩ := Segment.tiles_ofSpans lays.spans
  have whole := tiles.flatMap_entries items
  rw [List.reverse_reverse] at whole
  refine whole.trans (List.take_of_length_le ?_)
  simp [length]

/-! ## The segment of a statement -/

/-- The segment at an index holds the statement with a number. -/
def HoldsStatement (source : ParsedSource) (index number : Nat) : Prop :=
  ∃ segment ∈ source.segments[index]?,
    segment.statements.start ≤ number ∧ number < segment.statements.stop

instance (source : ParsedSource) (index number : Nat) :
    Decidable (source.HoldsStatement index number) :=
  inferInstanceAs (Decidable (∃ segment ∈ source.segments[index]?, _))

theorem mem_statementsOf_iff
    {source : ParsedSource} {index : Nat} {statement : Statement} :
    statement ∈ source.statementsOf index ↔
      ∃ number, source.HoldsStatement index number ∧
        source.statements[number]? = some statement := by
  unfold statementsOf HoldsStatement
  cases source.segments[index]? with
  | none => simp
  | some segment =>
      have entries : source.segmentStatements segment =
          segment.statements.entries source.statements := rfl
      simp only [entries, Span.mem_entries_iff, Option.mem_some_iff, exists_eq_left', and_assoc]

/-- The numbers of the statements are distributed over the segments. -/
theorem flatMap_numbers_segments (lays : Lays text nodes) :
    (ofNodes text nodes).segments.flatMap (·.statements.entries (List.range nodes.length)) =
      List.range nodes.length :=
  flatMap_entries_segments lays _ List.length_range

theorem exists_holdsStatement
    (lays : Lays text nodes) {number : Nat} (known : number < nodes.length) :
    ∃ index, (ofNodes text nodes).HoldsStatement index number := by
  have member := List.mem_range.mpr known
  rw [← flatMap_numbers_segments lays] at member
  obtain ⟨segment, inSegments, inSegment⟩ := List.mem_flatMap.mp member
  obtain ⟨index, found⟩ := List.mem_iff_getElem?.mp inSegments
  obtain ⟨lower, upper, _⟩ := Span.mem_entries_range_iff.mp inSegment
  exact ⟨index, segment, found, lower, upper⟩

theorem holdsStatement_unique
    (lays : Lays text nodes) {first second number : Nat} (known : number < nodes.length)
    (firstHolds : (ofNodes text nodes).HoldsStatement first number)
    (secondHolds : (ofNodes text nodes).HoldsStatement second number) :
    first = second := by
  have distinct : (List.range nodes.length).Nodup := List.nodup_range
  rw [← flatMap_numbers_segments lays, List.nodup_flatMap, List.pairwise_iff_getElem] at distinct
  obtain ⟨_, disjoint⟩ := distinct
  obtain ⟨_, firstFound, firstLower, firstUpper⟩ := firstHolds
  obtain ⟨_, secondFound, secondLower, secondUpper⟩ := secondHolds
  have firstMember := Span.mem_entries_range_iff.mpr ⟨firstLower, firstUpper, known⟩
  have secondMember := Span.mem_entries_range_iff.mpr ⟨secondLower, secondUpper, known⟩
  obtain ⟨firstBound, rfl⟩ := List.getElem?_eq_some_iff.mp firstFound
  obtain ⟨secondBound, rfl⟩ := List.getElem?_eq_some_iff.mp secondFound
  rcases Nat.lt_trichotomy first second with below | same | above
  · exact absurd secondMember (disjoint first second firstBound secondBound below firstMember)
  · exact same
  · exact absurd firstMember (disjoint second first secondBound firstBound above secondMember)

end ParsedSource

end Inliner
