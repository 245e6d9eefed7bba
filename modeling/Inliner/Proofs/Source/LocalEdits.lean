import Inliner.Proofs.Source.Rendering
import Inliner.Proofs.Source.SharedLines

/-!
# Edits change a segment where they apply

Rendering a segment takes slices of the text from one offset up to another.  Each of them is in
range, since a dropped statement takes no more along than the separator up to the next statement.
What comes out is the text of the segment with the edited statements changed and everything between
them left, but for the separators after dropped ones.
-/

namespace Inliner

open Syntax

/-! ## The separator after a dropped statement -/

/-- A text loses the spaces and tabs at its start, and one semicolon that follows them with the
spaces and tabs after it. -/
inductive LosesSeparator : Text → Text → Prop where
  | gap {blanks rest : Text} :
      (∀ character ∈ blanks, isGap character = true) →
        (∀ first ∈ rest.head?, isGap first = false ∧ first ≠ ';') →
          LosesSeparator (blanks ++ rest) rest
  | semicolon {before after rest : Text} :
      (∀ character ∈ before, isGap character = true) →
        (∀ character ∈ after, isGap character = true) →
          (∀ first ∈ rest.head?, isGap first = false) →
            LosesSeparator (before ++ ';' :: (after ++ rest)) rest

theorem isGap_head?_dropWhile
    {text : Text}
    {first : Char}
    (found : first ∈ (text.dropWhile isGap).head?) :
    isGap first = false := by
  have notGap := List.head?_dropWhile_not isGap text
  rw [Option.mem_def.mp found] at notGap
  exact notGap

theorem drop_length_takeWhile (text : Text) :
    text.drop (text.takeWhile isGap).length = text.dropWhile isGap := by
  calc
    _ = (text.takeWhile isGap ++ text.dropWhile isGap).drop (text.takeWhile isGap).length := by
        rw [List.takeWhile_append_dropWhile]
    _ = _ := List.drop_left

theorem losesSeparator_separatorLength (text : Text) :
    LosesSeparator text (text.drop (separatorLength text)) := by
  have split := List.takeWhile_append_dropWhile (p := isGap) (l := text)
  have blanks : ∀ character ∈ text.takeWhile isGap, isGap character = true :=
    fun _ member => List.mem_takeWhile_imp member
  unfold separatorLength
  dsimp only
  rw [drop_length_takeWhile]
  split
  next after isRest =>
    have dropped :
        text.drop ((text.takeWhile isGap).length + 1 + (after.takeWhile isGap).length) =
          after.dropWhile isGap := by
      rw [← List.drop_drop, ← List.drop_drop, drop_length_takeWhile, isRest, List.drop_succ_cons,
        List.drop_zero, drop_length_takeWhile]
    have loses : LosesSeparator
        (text.takeWhile isGap ++ ';' :: (after.takeWhile isGap ++ after.dropWhile isGap))
        (after.dropWhile isGap) :=
      .semicolon blanks (fun _ member => List.mem_takeWhile_imp member)
        (fun _ found => isGap_head?_dropWhile found)
    rw [List.takeWhile_append_dropWhile, ← isRest, split] at loses
    rw [dropped]
    exact loses
  next noSemicolon =>
    rw [drop_length_takeWhile]
    nth_rewrite 1 [← split]
    apply LosesSeparator.gap blanks
    intro first found
    refine ⟨isGap_head?_dropWhile found, ?_⟩
    rintro rfl
    obtain ⟨after, isRest⟩ := List.head?_eq_some_iff.mp found
    exact noSemicolon after isRest

/-! ## Edited statements and what is left between them -/

/-- What an edit leaves of the text between its statement and the next one. -/
def Edit.Leaves (edit : Edit) (gap left : Text) : Prop :=
  match edit with
  | .drop => LosesSeparator gap left
  | .keep | .replace _ => left = gap

/-- The text from an offset up to `stop` with the statements on the way edited, where a statement
with an edit ends at the offset. -/
inductive EditedFrom (text : Text) (stop : Nat) :
    Edit → Nat → List (Span × Edit) → Text → Prop where
  | nil {edit : Edit} {offset : Nat} {left : Text} :
      edit.Leaves (Span.slice ⟨offset, stop⟩ text) left →
        EditedFrom text stop edit offset [] left
  | cons {edit next : Edit} {offset : Nat} {span : Span} {rest : List (Span × Edit)}
      {left shown : Text} :
      edit.Leaves (Span.slice ⟨offset, span.start⟩ text) left →
        EditedFrom text stop next span.stop rest shown →
          EditedFrom text stop edit offset ((span, next) :: rest)
            (left ++ next.shown text span ++ shown)

theorem Edit.leaves_gapAfter (edit : Edit) (gap : Text) : edit.Leaves gap (edit.gapAfter gap) := by
  cases edit with
  | drop => exact losesSeparator_separatorLength gap
  | keep => rfl
  | replace new => rfl

theorem editedFrom_shownFrom
    (text : Text)
    (stop : Nat)
    (edit : Edit)
    (offset : Nat)
    (spans : List (Span × Edit)) :
    EditedFrom text stop edit offset spans (shownFrom text stop edit offset spans) := by
  induction spans generalizing edit offset with
  | nil => exact .nil (edit.leaves_gapAfter _)
  | cons entry rest inductionHypothesis =>
      exact .cons (edit.leaves_gapAfter _) (inductionHypothesis entry.2 entry.1.stop)

/-! ## Slices in range -/

/-- The part of a text that a span covers, if it is one of the text. -/
def Span.slice? (span : Span) (text : Text) : Option Text :=
  if span.start ≤ span.stop ∧ span.stop ≤ text.length then some (span.slice text) else none

theorem Span.slice?_of_le
    {text : Text}
    {start stop : Nat}
    (ordered : start ≤ stop)
    (inText : stop ≤ text.length) :
    Span.slice? ⟨start, stop⟩ text = some (Span.slice ⟨start, stop⟩ text) :=
  if_pos ⟨ordered, inText⟩

/-- As `renderSpans`, but only if every slice on the way is in range. -/
def renderSpans? (text : Text) (stop : Nat) : Nat → List (Span × Edit) → Option Text
  | offset, [] => Span.slice? ⟨offset, stop⟩ text
  | offset, (_, .keep) :: rest => renderSpans? text stop offset rest
  | offset, (span, .drop) :: rest =>
      (Span.slice? ⟨offset, span.start⟩ text).bind fun before =>
        (Span.slice? ⟨span.stop, stop⟩ text).bind fun after =>
          (renderSpans? text stop (span.stop + separatorLength after) rest).map (before ++ ·)
  | offset, (span, .replace new) :: rest =>
      (Span.slice? ⟨offset, span.start⟩ text).bind fun before =>
        (renderSpans? text stop span.stop rest).map (before ++ new ++ ·)

/-- The offset at which the first of some spans starts, or `stop` if there is none. -/
def nextStart (stop : Nat) (spans : List Span) : Nat :=
  (spans.head?.map (·.start)).getD stop

theorem SpansApart.le_nextStart
    {text : Text}
    {lower stop : Nat}
    {spans : List Span}
    (apart : SpansApart text lower stop spans) :
    lower ≤ nextStart stop spans := by
  cases spans with
  | nil => exact apart
  | cons span spans => exact apart.1

/-- A dropped statement does not reach into the next one. -/
theorem SpansApart.afterDropped_le_nextStart
    {text : Text}
    {lower stop : Nat}
    {spans : List Span}
    (apart : SpansApart text lower stop spans) :
    afterDropped text stop lower ≤ nextStart stop spans := by
  unfold afterDropped
  cases spans with
  | nil =>
      have shorter := separatorLength_le (Span.slice ⟨lower, stop⟩ text)
      have inGap := add_length_slice_le text apart
      change _ ≤ stop
      omega
  | cons span spans =>
      obtain ⟨startBound, spanBound, ends, restApart⟩ := apart
      have separator := separatorLength_slice startBound (spanBound.trans restApart.le) ends
      have shorter := separatorLength_le (Span.slice ⟨lower, span.start⟩ text)
      have inGap := add_length_slice_le text startBound
      change _ ≤ span.start
      omega

/-- From an offset no later than the next statement on, no slice is out of range. -/
theorem renderSpans?_eq
    {text : Text}
    {lower stop offset : Nat}
    {spans : List (Span × Edit)}
    (apart : SpansApart text lower stop (spans.map (·.1)))
    (inText : stop ≤ text.length)
    (notLater : offset ≤ nextStart stop (spans.map (·.1))) :
    renderSpans? text stop offset spans = some (renderSpans text stop offset spans) := by
  induction spans generalizing lower offset with
  | nil => exact Span.slice?_of_le notLater inText
  | cons entry rest inductionHypothesis =>
      obtain ⟨span, edit⟩ := entry
      obtain ⟨_, spanBound, _, restApart⟩ := apart
      have stopBound : span.stop ≤ stop := restApart.le
      have next : span.stop ≤ nextStart stop (rest.map (·.1)) := restApart.le_nextStart
      have before :
          Span.slice? ⟨offset, span.start⟩ text = some (Span.slice ⟨offset, span.start⟩ text) :=
        Span.slice?_of_le notLater ((spanBound.trans stopBound).trans inText)
      cases edit with
      | keep => exact inductionHypothesis restApart ((Nat.le_trans notLater spanBound).trans next)
      | drop =>
          have after :
              Span.slice? ⟨span.stop, stop⟩ text = some (Span.slice ⟨span.stop, stop⟩ text) :=
            Span.slice?_of_le stopBound inText
          have more := inductionHypothesis restApart restApart.afterDropped_le_nextStart
          rw [afterDropped] at more
          simp only [renderSpans?, before, after, Option.bind_some, more, Option.map_some]
          rfl
      | replace new =>
          simp only [renderSpans?, before, Option.bind_some, inductionHypothesis restApart next,
            Option.map_some]
          rfl

/-! ## Segments -/

namespace ParsedSource

/-- As `renderSegment`, but only if every slice on the way is in range. -/
def renderSegment? (source : ParsedSource) (edit : Nat → Edit) (segment : Segment) :
    Option Text :=
  let spans := source.editedSpans segment edit
  (segment.leading.slice? source.text).bind fun leading =>
    if spans.all (·.2 == .drop) then
      some leading
    else
      (renderSpans? source.text segment.body.stop segment.body.start spans).map fun shown =>
        Text.terminated (leading ++ shown)

/-- A segment that stands in the text of a source.  Its statements stand in order on its lines and
do not overlap, and none starts with a space, a tab or a semicolon. -/
structure WellSpaced (source : ParsedSource) (segment : Segment) : Prop where
  ordered : segment.leading.start ≤ segment.leading.stop
  leadingBound : segment.leading.stop ≤ source.text.length
  bodyBound : segment.body.stop ≤ source.text.length
  statements : SpansApart source.text segment.body.start segment.body.stop
    ((source.segmentStatements segment).map (·.span))

/-- How edits apply to a segment. -/
structure EditsLocally (source : ParsedSource) (segment : Segment) (edit : Nat → Edit) : Prop where
  inRange : source.renderSegment? edit segment = some (source.renderSegment edit segment)
  dropped :
    (∀ entry ∈ source.editedSpans segment edit, entry.2 = .drop) →
      source.renderSegment edit segment = segment.leading.slice source.text
  edited :
    (∃ entry ∈ source.editedSpans segment edit, entry.2 ≠ .drop) →
      ∃ shown,
        EditedFrom source.text segment.body.stop .keep segment.body.start
            (source.editedSpans segment edit) shown ∧
          OccurInOrder (keptTexts source.text (source.editedSpans segment edit)) shown ∧
          source.renderSegment edit segment =
            Text.terminated (segment.leading.slice source.text ++ shown)

theorem all_drop_iff (spans : List (Span × Edit)) :
    spans.all (·.2 == .drop) = true ↔ ∀ entry ∈ spans, entry.2 = .drop := by
  simp only [List.all_eq_true, beq_iff_eq]

theorem WellSpaced.renderSegment?_eq
    {source : ParsedSource}
    {segment : Segment}
    (spaced : source.WellSpaced segment)
    (edit : Nat → Edit) :
    source.renderSegment? edit segment = some (source.renderSegment edit segment) := by
  have apart := spaced.statements
  rw [← map_fst_editedSpans _ _ edit] at apart
  have shown := renderSpans?_eq apart spaced.bodyBound apart.le_nextStart
  have leading :
      segment.leading.slice? source.text = some (segment.leading.slice source.text) :=
    Span.slice?_of_le spaced.ordered spaced.leadingBound
  unfold renderSegment? renderSegment
  simp only [leading, Option.bind_some, shown, Option.map_some]
  split <;> rfl

theorem WellSpaced.editsLocally
    {source : ParsedSource}
    {segment : Segment}
    (spaced : source.WellSpaced segment)
    (edit : Nat → Edit) :
    source.EditsLocally segment edit := by
  have rendered := renderSegment_of_apart spaced.statements edit
  refine ⟨spaced.renderSegment?_eq edit, ?_, ?_⟩
  · intro allDropped
    rw [rendered, if_pos ((all_drop_iff _).mpr allDropped)]
  · intro someLeft
    obtain ⟨entry, member, notDropped⟩ := someLeft
    refine ⟨_, editedFrom_shownFrom _ _ _ _ _, occurInOrder_shownFrom _ _ _ _ _, ?_⟩
    rw [rendered, if_neg]
    intro allDropped
    exact notDropped ((all_drop_iff _).mp allDropped entry member)

theorem wellSpaced_ofNodes
    {text : Text}
    {nodes : List Node}
    (lays : Lays text nodes)
    {segment : Segment}
    (member : segment ∈ (ofNodes text nodes).segments) :
    (ofNodes text nodes).WellSpaced segment := by
  obtain ⟨offset, reached, tiles⟩ := Segment.tiles_ofSpans lays.spans
  obtain ⟨start, before, last, fits⟩ := tiles.exists_fits (List.mem_reverse.mpr member)
  have apart := (spansWithin_segmentStatements lays member).apart
  have bodyBound : segment.body.stop ≤ text.length := by
    rw [fits.stop_eq]
    exact text.rowStart_le_length _
  refine ⟨?_, ?_, bodyBound, apart⟩
  · rw [fits.leading_eq]
    exact fits.offset_le
  · rw [fits.leading_eq]
    exact apart.le.trans bodyBound

/-- The segments of an analysed text are well spaced, and edits apply locally to every segment that
is. -/
theorem renderSegment_edits_locally :
    (∀ text source, parse text = .ok source →
      ∀ segment ∈ source.segments, source.WellSpaced segment) ∧
      ∀ (source : ParsedSource) (segment : Segment), source.WellSpaced segment →
        ∀ edit, source.EditsLocally segment edit := by
  constructor
  · intro text source parsed segment member
    obtain ⟨nodes, rfl, lays⟩ := exists_nodes_of_parse parsed
    exact wellSpaced_ofNodes lays member
  · intro source segment spaced edit
    exact spaced.editsLocally edit

/-- Four statements on two lines below a comment, with separators of all kinds between them. -/
def crowdedLines : Text :=
  "# top\na = 1 ;b = (2,\n  3)\t; c = 4 ; d = 5  # end".toList

/-- Edits of all kinds for these statements. -/
def crowdedEdit : Nat → Edit
  | 0 | 2 => .drop
  | 1 => .replace "b = 0".toList
  | _ => .keep

theorem renderSegment_crowdedLines_locally :
    ∃ source segment shown,
      parse crowdedLines = .ok source ∧
        segment ∈ source.segments ∧
        source.EditsLocally segment crowdedEdit ∧
        EditedFrom source.text segment.body.stop .keep segment.body.start
          (source.editedSpans segment crowdedEdit) shown ∧
        source.renderSegment crowdedEdit segment =
          Text.terminated (segment.leading.slice source.text ++ shown) ∧
        source.renderSegment crowdedEdit segment = "# top\nb = 0\t; d = 5  # end\n".toList := by
  have facts : ∃ source segment,
      parse crowdedLines = .ok source ∧
        segment ∈ source.segments ∧
        (∃ entry ∈ source.editedSpans segment crowdedEdit, entry.2 ≠ .drop) ∧
        source.renderSegment crowdedEdit segment = "# top\nb = 0\t; d = 5  # end\n".toList := by
    let source := (parse crowdedLines).toOption.getD default
    refine ⟨source, source.segments.headD default, ?_⟩
    decide +kernel
  obtain ⟨source, segment, parsed, member, someLeft, rendered⟩ := facts
  have spaced := renderSegment_edits_locally.1 crowdedLines source parsed segment member
  have locally := renderSegment_edits_locally.2 source segment spaced crowdedEdit
  obtain ⟨shown, edited, _, whole⟩ := locally.edited someLeft
  exact ⟨source, segment, shown, parsed, member, locally, edited, whole, rendered⟩

end ParsedSource

end Inliner
