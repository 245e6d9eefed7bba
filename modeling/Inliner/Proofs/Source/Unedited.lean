import Inliner.Proofs.Source.Rendering
import Inliner.Proofs.Source.SharedLines

/-!
# Rendering without edits

A source whose statements are all kept is rendered as its text.  The one thing that can be added is
a line feed, at the end of the line of the last statement.
-/

namespace Inliner

open Syntax

/-! ## The end of a segment -/

namespace Segment

variable {text : Text} {spans : List Span} {segment : Segment} {segments : List Segment}
variable {lower start offset reached : Nat}

/-- The lines of a segment hold the last character of its last statement. -/
theorem Fits.last_lt_stop
    (fits : segment.Fits text spans start offset reached)
    (follows : segment.FollowsRows text spans)
    (within : SpansWithin text lower text.length spans)
    {number : Nat}
    {span : Span}
    (isLast : segment.statements.stop = number + 1)
    (found : spans[number]? = some span) :
    span.last < segment.body.stop := by
  have inText := within.last_lt_length (List.mem_of_getElem? found)
  have nextRow := text.min_le_rowStart_rowAt_succ span.last
  rw [fits.stop_eq, follows.endLine_eq number span isLast found]
  omega

theorem Fits.start_lt_stop
    (fits : segment.Fits text spans start offset reached)
    (follows : segment.FollowsRows text spans)
    (within : SpansWithin text lower text.length spans)
    (known : segment.statements.stop ≤ spans.length) :
    segment.body.start < segment.body.stop := by
  have startEq := fits.start_eq
  have hasStatement := fits.start_lt
  obtain ⟨number, isLast⟩ : ∃ number, segment.statements.stop = number + 1 :=
    ⟨segment.statements.stop - 1, by omega⟩
  have found : spans[number]? = some spans[number] := List.getElem?_eq_getElem (by omega)
  have held : spans[number] ∈ segment.statements.entries spans :=
    Span.mem_entries_iff.mpr ⟨number, by omega, by omega, found⟩
  have startBound := (fits.spans_within.of_mem held).1
  have reaches := fits.last_lt_stop follows within isLast found
  have ordered := Span.start_le_last spans[number]
  omega

/-- A segment starts before the text ends. -/
theorem Fits.start_lt_length
    (fits : segment.Fits text spans start offset reached)
    (within : SpansWithin text lower text.length spans)
    (known : start < spans.length) :
    segment.body.start < text.length := by
  have found : spans[start]? = some spans[start] := List.getElem?_eq_getElem known
  have inText := (within.of_mem (List.mem_of_getElem? found)).2.lt_length
  have rowBound := text.rowStart_rowAt_le spans[start].start
  rw [fits.body_start _ found]
  omega

theorem Tiles.stopOf_reverse
    {index : Nat}
    (tiles : Tiles text spans segments index offset reached) :
    stopOf segments.reverse = offset := by
  cases tiles with
  | nil => rfl
  | cons earlierTiles fits => simp [stopOf]

/-- The segments end with the row of the last statement. -/
theorem Tiles.stop_of_getLast?
    (follow : ∀ segment ∈ segments, segment.FollowsRows text spans)
    {index : Nat}
    (tiles : Tiles text spans segments index offset reached)
    (whole : index = spans.length)
    {span : Span}
    (isLast : spans.getLast? = some span) :
    segments ≠ [] ∧ offset = text.rowStart (text.rowAt span.last + 1) := by
  cases tiles with
  | nil =>
      rw [List.length_eq_zero_iff.mp whole.symm] at isLast
      cases isLast
  | @cons _ segment _ _ _ _ _ fits =>
      obtain ⟨number, isNumber⟩ : ∃ number, segment.statements.stop = number + 1 :=
        ⟨segment.statements.stop - 1, by have := fits.start_lt; omega⟩
      have found : spans[number]? = some span := by
        rw [← isLast, List.getLast?_eq_getElem?, ← whole, isNumber, Nat.add_sub_cancel]
      refine ⟨List.cons_ne_nil _ _, ?_⟩
      rw [fits.stop_eq, (follow segment List.mem_cons_self).endLine_eq number span isNumber found]

end Segment

/-! ## Rendering -/

theorem Text.not_endsLine_of_not_mem_drop
    {text : Text}
    {offset : Nat}
    (inText : offset < text.length)
    (noFeed : '\n' ∉ text.drop offset) :
    ¬ Text.EndsLine text := by
  intro ended
  have notEmpty : text ≠ [] := by
    rintro rfl
    exact Nat.not_lt_zero _ inText
  have final := List.getLast?_eq_some_getLast notEmpty
  rw [ended _ final] at final
  apply noFeed
  apply List.mem_of_getLast?
  rw [List.getLast?_drop, if_neg (Nat.not_le.mpr inText)]
  exact final

/-- A text cut at the end of a row and put together again, with a line feed at the cut if there is
none. -/
theorem Text.terminated_take_append_drop
    {text : Text}
    {offset : Nat}
    (inText : offset < text.length) :
    Text.terminated (text.take (text.rowStart (text.rowAt offset + 1))) ++
        text.drop (text.rowStart (text.rowAt offset + 1)) =
      if '\n' ∈ text.drop offset then text else text ++ ['\n'] := by
  have reaches := text.min_le_rowStart_rowAt_succ offset
  by_cases feed : '\n' ∈ text.drop offset
  · have known := (text.rowAt_lt_count_iff offset).mpr feed
    have notEmpty : text.take (text.rowStart (text.rowAt offset + 1)) ≠ [] := by
      rw [← List.length_pos_iff, List.length_take]
      omega
    rw [if_pos feed, Text.terminated_of_endsLine (Text.endsLine_take_rowStart known) notEmpty,
      List.take_append_drop]
  · have past : text.count '\n' < text.rowAt offset + 1 := by
      rw [Nat.lt_succ_iff, ← Nat.not_lt, text.rowAt_lt_count_iff offset]
      exact feed
    rw [if_neg feed, Text.rowStart_of_count_lt past, List.take_length, List.drop_length,
      List.append_nil]
    exact Text.terminated_of_not_endsLine (Text.not_endsLine_of_not_mem_drop inText feed)

theorem Span.slice_zero (text : Text) (stop : Nat) :
    Span.slice ⟨0, stop⟩ text = text.take stop := by
  simp [Span.slice]

theorem renderSpans_of_keep
    (text : Text)
    (stop offset : Nat)
    {spans : List (Span × Edit)}
    (kept : ∀ entry ∈ spans, entry.2 = .keep) :
    renderSpans text stop offset spans = Span.slice ⟨offset, stop⟩ text := by
  induction spans with
  | nil => rfl
  | cons entry spans inductionHypothesis =>
      obtain ⟨span, edit⟩ := entry
      obtain rfl : edit = .keep := kept _ List.mem_cons_self
      exact inductionHypothesis (fun other later => kept other (List.mem_cons_of_mem _ later))

namespace ParsedSource

variable {source : ParsedSource} {edit : Nat → Edit} {segment : Segment}

theorem renderSegment_of_keep
    (keeps : ∀ statement, edit statement = .keep)
    (hasStatement : source.segmentStatements segment ≠ []) :
    source.renderSegment edit segment =
      Text.terminated (segment.leading.slice source.text ++ segment.body.slice source.text) := by
  have kept : ∀ entry ∈ source.editedSpans segment edit, entry.2 = .keep := by
    intro entry member
    obtain ⟨⟨statement, index⟩, _, rfl⟩ := List.mem_map.mp member
    exact keeps index
  have notAllDropped :
      ¬ (source.editedSpans segment edit).all (·.2 == .drop) = true := by
    intro allDropped
    have notEmpty : source.editedSpans segment edit ≠ [] := by
      intro empty
      have spans := source.map_fst_editedSpans segment edit
      rw [empty, List.map_nil] at spans
      exact hasStatement (List.map_eq_nil_iff.mp spans.symm)
    obtain ⟨entry, rest, entries⟩ := List.exists_cons_of_ne_nil notEmpty
    have member : entry ∈ source.editedSpans segment edit := entries ▸ List.mem_cons_self
    have dropped := List.all_eq_true.mp allDropped entry member
    rw [kept entry member] at dropped
    cases dropped
  unfold renderSegment
  dsimp only
  rw [if_neg notAllDropped, renderSpans_of_keep _ _ _ kept]

theorem renderSegment_of_fits
    {spans : List Span}
    {start offset reached : Nat}
    (keeps : ∀ statement, edit statement = .keep)
    (fits : segment.Fits source.text spans start offset reached)
    (known : segment.statements.stop ≤ source.statements.length) :
    source.renderSegment edit segment =
      Text.terminated (Span.slice ⟨offset, segment.body.stop⟩ source.text) := by
  have startEq := fits.start_eq
  have firstStatement := fits.start_lt
  have hasStatement : source.segmentStatements segment ≠ [] := by
    intro empty
    have lengths := congrArg List.length empty
    simp only [segmentStatements, List.length_take, List.length_drop, List.length_nil] at lengths
    omega
  have bodyBound := fits.spans_within.le.trans fits.reached_le
  rw [renderSegment_of_keep keeps hasStatement, fits.leading_eq]
  exact congrArg Text.terminated (Span.slice_append_slice source.text fits.offset_le bodyBound)

/-- Segments are rendered as the text up to the offset where they end.  Only the last one can end
without a line feed, since another one starts a line after those before it. -/
theorem flatMap_renderSegment_of_keep
    {spans : List Span}
    {lower index offset reached : Nat}
    {earlier : List Segment}
    (keeps : ∀ statement, edit statement = .keep)
    (within : SpansWithin source.text lower source.text.length spans)
    (sameLength : spans.length = source.statements.length)
    (follow : ∀ other ∈ segment :: earlier, other.FollowsRows source.text spans)
    (tiles : Segment.Tiles source.text spans (segment :: earlier) index offset reached)
    (known : index ≤ source.statements.length) :
    (segment :: earlier).reverse.flatMap (source.renderSegment edit) =
      Text.terminated (source.text.take offset) := by
  induction earlier generalizing segment index offset reached with
  | nil =>
      cases tiles with
      | cons earlierTiles fits =>
          cases earlierTiles
          rw [List.reverse_singleton, List.flatMap_singleton,
            renderSegment_of_fits keeps fits known, Span.slice_zero]
  | cons previous earlier inductionHypothesis =>
      cases tiles with
      | @cons _ _ start before _ _ earlierTiles fits =>
          have startKnown : start < source.statements.length :=
            Nat.lt_of_lt_of_le fits.start_lt known
          have earlierRendered := inductionHypothesis
            (fun other member => follow other (List.mem_cons_of_mem _ member)) earlierTiles
            startKnown.le
          have startBound := fits.start_lt_length within (by omega)
          have leadBound := fits.offset_le
          have bodyBound := fits.spans_within.le.trans fits.reached_le
          have stopped := source.text.rowStart_le_length segment.endLine
          rw [← fits.stop_eq] at stopped
          have ownLine := fits.start_lt_stop (follow segment List.mem_cons_self) within
            (by omega)
          -- The segment before ends where a row starts, and some of the text is left.
          have previousEnded : Text.EndsLine (source.text.take before) ∧ 0 < before := by
            cases earlierTiles with
            | cons _ previousFits =>
                have previousFollows := follow previous (List.mem_cons_of_mem _ List.mem_cons_self)
                have previousLine := previousFits.start_lt_stop previousFollows within
                  (by omega)
                refine ⟨?_, by omega⟩
                rw [previousFits.stop_eq]
                apply Text.endsLine_take_rowStart
                by_contra past
                rw [previousFits.stop_eq, Text.rowStart_of_count_lt (by omega)] at leadBound
                omega
          have notEmpty : source.text.take before ≠ [] := by
            rw [← List.length_pos_iff, List.length_take]
            omega
          have partNotEmpty : Span.slice ⟨before, segment.body.stop⟩ source.text ≠ [] := by
            rw [← List.length_pos_iff, Span.slice, List.length_take, List.length_drop]
            dsimp only
            omega
          rw [List.reverse_cons, List.flatMap_append, List.flatMap_singleton, earlierRendered,
            renderSegment_of_fits keeps fits known,
            Text.terminated_of_endsLine previousEnded.1 notEmpty,
            ← Text.terminated_append _ partNotEmpty, ← Span.slice_zero,
            Span.slice_append_slice source.text (Nat.zero_le _) (leadBound.trans bodyBound),
            Span.slice_zero]

/-- The line of the last statement goes on to the end of the text. -/
def Unterminated (source : ParsedSource) : Prop :=
  ∃ statement ∈ source.statements.getLast?, '\n' ∉ source.text.drop statement.span.last

instance (source : ParsedSource) : Decidable source.Unterminated :=
  inferInstanceAs (Decidable (∃ statement ∈ source.statements.getLast?, _))

theorem unterminated_iff
    {text : Text}
    {nodes : List Node}
    {span : Span}
    (isLast : (nodes.map (·.span)).getLast? = some span) :
    (ofNodes text nodes).Unterminated ↔ '\n' ∉ text.drop span.last := by
  rw [← map_span_statements text nodes, List.getLast?_map, Option.map_eq_some_iff] at isLast
  obtain ⟨statement, statementLast, rfl⟩ := isLast
  constructor
  · rintro ⟨other, otherLast, noFeed⟩
    obtain rfl := Option.some.inj (statementLast.symm.trans otherLast)
    exact noFeed
  · intro noFeed
    exact ⟨statement, statementLast, noFeed⟩

/-- A source whose statements are all kept is rendered as its text, and a line feed after it if the
line of the last statement has none. -/
theorem render_of_keep
    {text : Text}
    {nodes : List Node}
    (lays : Lays text nodes)
    (keeps : ∀ statement, edit statement = .keep) :
    (ofNodes text nodes).render edit =
      if (ofNodes text nodes).Unterminated then text ++ ['\n'] else text := by
  cases isLast : (nodes.map (·.span)).getLast? with
  | none =>
      obtain rfl : nodes = [] := by simpa using isLast
      have nothingOpen : ¬ (ofNodes text []).Unterminated := by
        rintro ⟨statement, impossible, _⟩
        cases impossible
      rw [if_neg nothingOpen]
      exact List.take_of_length_le (by simp [ofNodes, Segment.ofSpans, Segment.pushAll])
  | some span =>
      obtain ⟨offset, reached, tiles⟩ := Segment.tiles_ofSpans lays.spans
      have follow : ∀ segment ∈ (Segment.ofSpans text (nodes.map (·.span))).reverse,
          segment.FollowsRows text (nodes.map (·.span)) :=
        fun _ member => Segment.followsRows_of_mem_ofSpans lays.spans (List.mem_reverse.mp member)
      obtain ⟨hasSegment, stopRow⟩ := tiles.stop_of_getLast? follow rfl isLast
      obtain ⟨segment, earlier, segments⟩ := List.exists_cons_of_ne_nil hasSegment
      have stop := tiles.stopOf_reverse
      rw [List.reverse_reverse] at stop
      have rendered :
          (ofNodes text nodes).segments.flatMap ((ofNodes text nodes).renderSegment edit) =
            Text.terminated (text.take offset) := by
        rw [← List.reverse_reverse (ofNodes text nodes).segments]
        have segmentsEq : (ofNodes text nodes).segments.reverse = segment :: earlier := segments
        rw [segments] at tiles follow
        rw [segmentsEq]
        exact flatMap_renderSegment_of_keep keeps lays.spans
          (by simp [ofNodes]) follow tiles (by simp [ofNodes])
      have trailing : (ofNodes text nodes).trailingText = text.drop offset := by
        rw [← stop]
        exact List.take_of_length_le (by simp [ofNodes])
      have inText := lays.spans.last_lt_length (List.mem_of_getLast? isLast)
      rw [render, rendered, trailing, stopRow, Text.terminated_take_append_drop inText]
      by_cases feed : '\n' ∈ text.drop span.last
      · rw [if_pos feed, if_neg]
        intro unterminated
        exact (unterminated_iff isLast).mp unterminated feed
      · rw [if_neg feed, if_pos ((unterminated_iff isLast).mpr feed)]

end ParsedSource

end Inliner
