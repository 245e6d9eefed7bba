import Inliner.Proofs.Source.Segments
import Inliner.Source.Render

/-!
# Segments with edited statements

`Edit.shown` says what is seen of a statement with an edit, and `Edit.gapAfter` what is left of the
text between it and the next one: a dropped statement takes the gap after it along, and one
semicolon in it.  A rendered segment consists of just these, in the order of the statements.  What
is kept of a whole source stands in its order too, also below a comment at the beginning.
-/

namespace Inliner

open Syntax

/-! ## The separator after a dropped statement -/

theorem separatorLength_cons_of_isGap
    {first : Char}
    (gap : isGap first = true)
    (rest : Text) :
    separatorLength (first :: rest) = separatorLength rest + 1 := by
  simp only [separatorLength, List.takeWhile_cons, gap, ↓reduceIte, List.length_cons,
    List.drop_succ_cons]
  split <;> omega

theorem separatorLength_semicolon (rest : Text) :
    separatorLength (';' :: rest) = 1 + (rest.takeWhile isGap).length := by
  have notGap : isGap ';' = false := by decide
  simp [separatorLength, notGap]

theorem separatorLength_cons_of_ne
    {first : Char}
    (notGap : isGap first = false)
    (notSemicolon : first ≠ ';')
    (rest : Text) :
    separatorLength (first :: rest) = 0 := by
  simp [separatorLength, notGap, notSemicolon]

theorem separatorLength_le (text : Text) : separatorLength text ≤ text.length := by
  induction text with
  | nil => simp [separatorLength]
  | cons first rest inductionHypothesis =>
      by_cases gap : isGap first = true
      · rw [separatorLength_cons_of_isGap gap, List.length_cons]
        omega
      · by_cases semicolon : first = ';'
        · subst semicolon
          have shorter := (List.takeWhile_sublist isGap (l := rest)).length_le
          rw [separatorLength_semicolon, List.length_cons]
          omega
        · rw [separatorLength_cons_of_ne (by simpa using gap) semicolon]
          omega

/-- A separator does not reach into what starts with neither a gap nor a semicolon. -/
theorem separatorLength_append
    (gap : Text)
    {code : Text}
    (starts : ∀ first, code.head? = some first → isGap first = false ∧ first ≠ ';') :
    separatorLength (gap ++ code) = separatorLength gap := by
  have noGap : code.takeWhile isGap = [] := by
    cases code with
    | nil => rfl
    | cons first rest => simp [(starts first rfl).1]
  induction gap with
  | nil =>
      cases code with
      | nil => rfl
      | cons first rest =>
          obtain ⟨notGap, notSemicolon⟩ := starts first rfl
          exact separatorLength_cons_of_ne notGap notSemicolon rest
  | cons first rest inductionHypothesis =>
      by_cases gap : isGap first = true
      · rw [List.cons_append, separatorLength_cons_of_isGap gap,
          separatorLength_cons_of_isGap gap, inductionHypothesis]
      · by_cases semicolon : first = ';'
        · subst semicolon
          rw [List.cons_append, separatorLength_semicolon, separatorLength_semicolon,
            List.takeWhile_append, noGap, List.append_nil]
          split
          next whole => rw [whole]
          next => rfl
        · rw [List.cons_append, separatorLength_cons_of_ne (by simpa using gap) semicolon,
            separatorLength_cons_of_ne (by simpa using gap) semicolon]

/-! ## Slices -/

namespace Span

@[simp]
theorem slice_self (text : Text) (offset : Nat) : slice ⟨offset, offset⟩ text = [] := by
  simp [slice]

theorem drop_slice (text : Text) (start stop count : Nat) :
    (slice ⟨start, stop⟩ text).drop count = slice ⟨start + count, stop⟩ text := by
  simp only [slice, List.drop_take, List.drop_drop]
  rw [Nat.sub_sub]

theorem head?_slice
    {text : Text}
    {start stop : Nat}
    {first : Char}
    (found : (slice ⟨start, stop⟩ text).head? = some first) :
    text[start]? = some first := by
  simp only [slice, List.head?_take] at found
  split at found
  · cases found
  · rwa [List.head?_drop] at found

end Span

/-! ## Statements and the text between them -/

namespace Edit

/-- What is seen of a statement. -/
def shown (text : Text) (span : Span) : Edit → Text
  | .keep => span.slice text
  | .drop => []
  | .replace new => new

/-- What is left of the text after a statement. -/
def gapAfter (edit : Edit) (gap : Text) : Text :=
  match edit with
  | .drop => gap.drop (separatorLength gap)
  | .keep | .replace _ => gap

end Edit

/-- Statements with their edits, from an offset up to `stop`, after a statement with an edit that
ends at the offset. -/
def shownFrom (text : Text) (stop : Nat) (edit : Edit) (offset : Nat) :
    List (Span × Edit) → Text
  | [] => edit.gapAfter (Span.slice ⟨offset, stop⟩ text)
  | (span, next) :: rest =>
      edit.gapAfter (Span.slice ⟨offset, span.start⟩ text) ++ next.shown text span ++
        shownFrom text stop next span.stop rest

@[simp]
theorem shownFrom_replace
    (text new : Text)
    (stop offset : Nat)
    (spans : List (Span × Edit)) :
    shownFrom text stop (.replace new) offset spans = shownFrom text stop .keep offset spans := by
  cases spans <;> rfl

theorem isGap_eq_false_of_isTrivia
    {character : Char}
    (notBlank : isTrivia character = false) :
    isGap character = false := by
  cases gap : isGap character with
  | false => rfl
  | true =>
      simp only [isGap, Bool.or_eq_true, beq_iff_eq] at gap
      rcases gap with rfl | rfl <;> cases notBlank

/-- A separator goes no further at an offset: no space, tab or semicolon stands there. -/
def EndsSeparator (text : Text) (offset : Nat) : Prop :=
  ∀ first, text[offset]? = some first → isGap first = false ∧ first ≠ ';'

theorem Syntax.StartsCode.endsSeparator
    {text : Text}
    {offset : Nat}
    (starts : StartsCode text offset) :
    EndsSeparator text offset := by
  intro first found
  obtain ⟨notBlank, notSemicolon⟩ := starts.of_getElem? found
  exact ⟨isGap_eq_false_of_isTrivia notBlank, notSemicolon⟩

theorem separatorLength_slice
    {text : Text}
    {offset start stop : Nat}
    (startBound : offset ≤ start)
    (stopBound : start ≤ stop)
    (ends : EndsSeparator text start) :
    separatorLength (Span.slice ⟨offset, stop⟩ text) =
      separatorLength (Span.slice ⟨offset, start⟩ text) := by
  rw [← Span.slice_append_slice text startBound stopBound]
  apply separatorLength_append
  intro first found
  exact ends first (Span.head?_slice found)

/-- Spans of a text one after the other between two offsets, at whose starts separators end. -/
def SpansApart (text : Text) : Nat → Nat → List Span → Prop
  | lower, upper, [] => lower ≤ upper
  | lower, upper, span :: spans =>
      lower ≤ span.start ∧ span.start ≤ span.stop ∧ EndsSeparator text span.start ∧
        SpansApart text span.stop upper spans

theorem SpansApart.le
    {text : Text}
    {lower upper : Nat}
    {spans : List Span}
    (apart : SpansApart text lower upper spans) :
    lower ≤ upper := by
  induction spans generalizing lower with
  | nil => exact apart
  | cons span spans inductionHypothesis =>
      obtain ⟨startBound, spanBound, _, restApart⟩ := apart
      exact (startBound.trans spanBound).trans (inductionHypothesis restApart)

theorem Syntax.SpansWithin.apart
    {text : Text}
    {lower upper : Nat}
    {spans : List Span}
    (within : SpansWithin text lower upper spans) :
    SpansApart text lower upper spans := by
  induction within with
  | nil bound => exact bound
  | cons startBound spanBound starts _ inductionHypothesis =>
      exact ⟨startBound, spanBound, starts.endsSeparator, inductionHypothesis⟩

/-- The text is passed over up to the first statement that is edited; what is kept before it comes
out as it stands. -/
theorem renderSpans_eq_shownFrom
    {text : Text}
    {lower stop : Nat}
    {spans : List (Span × Edit)}
    (apart : SpansApart text lower stop (spans.map (·.1))) :
    (∀ offset, offset ≤ lower →
      renderSpans text stop offset spans =
        Span.slice ⟨offset, lower⟩ text ++ shownFrom text stop .keep lower spans) ∧
      renderSpans text stop (afterDropped text stop lower) spans =
        shownFrom text stop .drop lower spans := by
  induction spans generalizing lower with
  | nil =>
      have bound := apart.le
      refine ⟨?_, ?_⟩
      · intro offset offsetBound
        exact (Span.slice_append_slice text offsetBound bound).symm
      · simp [renderSpans, shownFrom, Edit.gapAfter, afterDropped, Span.drop_slice]
  | cons pair rest inductionHypothesis =>
      obtain ⟨span, edit⟩ := pair
      obtain ⟨startBound, spanBound, ends, restApart⟩ := apart
      dsimp only at startBound spanBound ends restApart
      obtain ⟨keptRest, droppedRest⟩ := inductionHypothesis restApart
      have fromBefore : ∀ offset, offset ≤ span.start →
          renderSpans text stop offset ((span, edit) :: rest) =
            Span.slice ⟨offset, span.start⟩ text ++ edit.shown text span ++
              shownFrom text stop edit span.stop rest := by
        intro offset offsetBound
        cases edit with
        | keep =>
            rw [renderSpans, keptRest offset (offsetBound.trans spanBound),
              ← Span.slice_append_slice text offsetBound spanBound]
            rfl
        | drop => simp [renderSpans, droppedRest, Edit.shown]
        | replace new =>
            simp [renderSpans, keptRest span.stop (le_refl _), Edit.shown]
      refine ⟨?_, ?_⟩
      · intro offset offsetBound
        rw [fromBefore offset (offsetBound.trans startBound),
          ← Span.slice_append_slice text offsetBound startBound]
        simp [shownFrom, Edit.gapAfter]
      · have stopBound := spanBound.trans restApart.le
        have separator := separatorLength_slice startBound stopBound ends
        have shorter := separatorLength_le (Span.slice ⟨lower, span.start⟩ text)
        have inGap := add_length_slice_le text startBound
        rw [afterDropped, separator, fromBefore _ (by omega), shownFrom, Edit.gapAfter,
          Span.drop_slice]

/-! ## Texts in order in a text -/

namespace OccurInOrder

variable {parts : List Text} {text : Text}

theorem of_cons
    {first : Char}
    (occur : OccurInOrder parts (first :: text))
    (starts : ∀ part ∈ parts, part.head? ≠ some first) :
    OccurInOrder parts text := by
  induction parts with
  | nil => trivial
  | cons part parts inductionHypothesis =>
      obtain ⟨gap, after, equal, rest⟩ := occur
      cases gap with
      | cons _ gap =>
          obtain ⟨rfl, rfl⟩ := List.cons.inj equal
          exact ⟨gap, after, rfl, rest⟩
      | nil =>
          cases part with
          | cons other part =>
              obtain ⟨rfl, _⟩ := List.cons.inj equal
              exact absurd rfl (starts _ List.mem_cons_self)
          | nil =>
              subst equal
              refine ⟨[], text, rfl, inductionHypothesis rest ?_⟩
              exact fun part member => starts part (List.mem_cons_of_mem _ member)

/-- Characters that start none of the texts can be left out before them. -/
theorem dropWhile
    {blank : Char → Bool}
    (occur : OccurInOrder parts text)
    (starts : ∀ part ∈ parts, ∀ first, part.head? = some first → blank first = false) :
    OccurInOrder parts (text.dropWhile blank) := by
  induction text with
  | nil => exact occur
  | cons first rest inductionHypothesis =>
      by_cases isBlank : blank first = true
      · rw [List.dropWhile_cons_of_pos isBlank]
        apply inductionHypothesis
        apply occur.of_cons
        intro part member starting
        rw [starts part member first starting] at isBlank
        cases isBlank
      · rwa [List.dropWhile_cons_of_neg isBlank]

end OccurInOrder

/-- The statements that are kept, as they stand in a text. -/
def keptTexts (text : Text) (spans : List (Span × Edit)) : List Text :=
  (spans.filter (·.2 == .keep)).map (·.1.slice text)

theorem keptTexts_append (text : Text) (first second : List (Span × Edit)) :
    keptTexts text (first ++ second) = keptTexts text first ++ keptTexts text second := by
  simp [keptTexts]

theorem exists_of_mem_keptTexts
    {text part : Text}
    {spans : List (Span × Edit)}
    (member : part ∈ keptTexts text spans) :
    ∃ span ∈ spans.map (·.1), part = span.slice text := by
  obtain ⟨pair, kept, rfl⟩ := List.mem_map.mp member
  exact ⟨pair.1, List.mem_map_of_mem (List.mem_filter.mp kept).1, rfl⟩

theorem occurInOrder_shownFrom
    (text : Text)
    (stop : Nat)
    (edit : Edit)
    (offset : Nat)
    (spans : List (Span × Edit)) :
    OccurInOrder (keptTexts text spans) (shownFrom text stop edit offset spans) := by
  induction spans generalizing edit offset with
  | nil => trivial
  | cons pair rest inductionHypothesis =>
      obtain ⟨span, next⟩ := pair
      have restOccurs := inductionHypothesis next span.stop
      cases next with
      | keep => exact ⟨_, _, rfl, restOccurs⟩
      | drop => exact restOccurs.prepend _
      | replace new => exact restOccurs.prepend _

/-! ## Segments -/

namespace ParsedSource

/-- The spans of the statements of a source with their edits. -/
def editedStatements (source : ParsedSource) (edit : Nat → Edit) : List (Span × Edit) :=
  source.statements.zipIdx.map fun (statement, index) => (statement.span, edit index)

theorem editedSpans_eq_entries
    (source : ParsedSource)
    (segment : Segment)
    (edit : Nat → Edit) :
    source.editedSpans segment edit =
      segment.statements.entries (source.editedStatements edit) := by
  rw [editedSpans, editedStatements, Span.entries_map, Span.entries_zipIdx]
  rfl

/-- The statements of the segments are all statements, in order. -/
theorem flatMap_editedSpans
    {text : Text}
    {nodes : List Node}
    (lays : Lays text nodes)
    (edit : Nat → Edit) :
    (ofNodes text nodes).segments.flatMap (fun segment =>
        (ofNodes text nodes).editedSpans segment edit) =
      (ofNodes text nodes).editedStatements edit := by
  simp only [editedSpans_eq_entries]
  exact flatMap_entries_segments lays _ (by simp [editedStatements, ofNodes])

theorem map_fst_zipIdx (statements : List Statement) (start : Nat) (edit : Nat → Edit) :
    ((statements.zipIdx start).map fun (statement, index) => (statement.span, edit index)).map
      (·.1) = statements.map (·.span) := by
  calc
    _ = ((statements.zipIdx start).map Prod.fst).map (·.span) := by
        rw [List.map_map, List.map_map]
        rfl
    _ = _ := by rw [List.zipIdx_map_fst]

theorem map_fst_editedSpans (source : ParsedSource) (segment : Segment) (edit : Nat → Edit) :
    (source.editedSpans segment edit).map (·.1) =
      (source.segmentStatements segment).map (·.span) :=
  map_fst_zipIdx _ _ edit

/-- Statements that stand apart on the lines of their segment are shown there with their edits. -/
theorem renderSegment_of_apart
    {source : ParsedSource}
    {segment : Segment}
    (apart : SpansApart source.text segment.body.start segment.body.stop
      ((source.segmentStatements segment).map (·.span)))
    (edit : Nat → Edit) :
    source.renderSegment edit segment =
      if (source.editedSpans segment edit).all (·.2 == .drop) then
        segment.leading.slice source.text
      else
        Text.terminated
          (segment.leading.slice source.text ++
            shownFrom source.text segment.body.stop .keep segment.body.start
              (source.editedSpans segment edit)) := by
  rw [← map_fst_editedSpans _ _ edit] at apart
  have rendered := (renderSpans_eq_shownFrom apart).1 segment.body.start (le_refl _)
  rw [Span.slice_self, List.nil_append] at rendered
  rw [renderSegment, rendered]

theorem renderSegment_eq
    {text : Text}
    {nodes : List Node}
    (lays : Lays text nodes)
    (edit : Nat → Edit)
    {segment : Segment}
    (member : segment ∈ (ofNodes text nodes).segments) :
    (ofNodes text nodes).renderSegment edit segment =
      if ((ofNodes text nodes).editedSpans segment edit).all (·.2 == .drop) then
        segment.leading.slice text
      else
        Text.terminated
          (segment.leading.slice text ++
            shownFrom text segment.body.stop .keep segment.body.start
              ((ofNodes text nodes).editedSpans segment edit)) :=
  renderSegment_of_apart (spansWithin_segmentStatements lays member).apart edit

/-- The statements of a segment that are kept occur in order after what leads up to them. -/
theorem exists_renderSegment
    {text : Text}
    {nodes : List Node}
    (lays : Lays text nodes)
    (edit : Nat → Edit)
    {segment : Segment}
    (member : segment ∈ (ofNodes text nodes).segments) :
    ∃ shown,
      (ofNodes text nodes).renderSegment edit segment = segment.leading.slice text ++ shown ∧
        OccurInOrder (keptTexts text ((ofNodes text nodes).editedSpans segment edit)) shown := by
  rw [renderSegment_eq lays edit member]
  split
  next allDropped =>
    refine ⟨[], (List.append_nil _).symm, ?_⟩
    have noneKept : keptTexts text ((ofNodes text nodes).editedSpans segment edit) = [] := by
      rw [List.all_eq_true] at allDropped
      rw [keptTexts, List.map_eq_nil_iff, List.filter_eq_nil_iff]
      intro pair pairMember kept
      have dropped := allDropped pair pairMember
      rw [beq_iff_eq] at dropped kept
      rw [kept] at dropped
      cases dropped
    rw [noneKept]
    trivial
  next =>
    have occur := occurInOrder_shownFrom text segment.body.stop .keep segment.body.start
      ((ofNodes text nodes).editedSpans segment edit)
    unfold Text.terminated
    split
    · exact ⟨_, rfl, occur⟩
    · exact ⟨_, List.append_assoc _ _ _, occur.append_right _⟩

end ParsedSource

/-! ## A whole source -/

namespace ParsedSource

variable {text : Text} {nodes : List Node}

theorem map_fst_editedStatements (source : ParsedSource) (edit : Nat → Edit) :
    (source.editedStatements edit).map (·.1) = source.statements.map (·.span) :=
  map_fst_zipIdx _ 0 edit

/-- A kept statement is the text of a node. -/
theorem exists_node_of_mem_keptTexts
    {edit : Nat → Edit}
    {part : Text}
    (member : part ∈ keptTexts text ((ofNodes text nodes).editedStatements edit)) :
    ∃ span ∈ nodes.map (·.span), part = span.slice text := by
  obtain ⟨span, spanMember, rfl⟩ := exists_of_mem_keptTexts member
  rw [map_fst_editedStatements, map_span_statements] at spanMember
  exact ⟨span, spanMember, rfl⟩

/-- What is kept does not start with white space. -/
theorem isTrivia_head?_keptTexts
    (lays : Lays text nodes)
    {edit : Nat → Edit}
    {part : Text}
    (member : part ∈ keptTexts text ((ofNodes text nodes).editedStatements edit))
    {first : Char}
    (starts : part.head? = some first) :
    isTrivia first = false := by
  obtain ⟨span, spanMember, rfl⟩ := exists_node_of_mem_keptTexts member
  obtain ⟨_, startsCode⟩ := lays.spans.of_mem spanMember
  exact (startsCode.of_getElem? (Span.head?_slice starts)).1

/-- The statements of some segments that are kept occur in order in these segments. -/
theorem occurInOrder_flatMap_renderSegment
    (lays : Lays text nodes)
    (edit : Nat → Edit)
    {segments : List Segment}
    (subset : segments ⊆ (ofNodes text nodes).segments) :
    OccurInOrder
      (keptTexts text
        (segments.flatMap fun segment => (ofNodes text nodes).editedSpans segment edit))
      (segments.flatMap ((ofNodes text nodes).renderSegment edit)) := by
  induction segments with
  | nil => trivial
  | cons segment segments inductionHypothesis =>
      obtain ⟨inSource, restSubset⟩ := List.cons_subset.mp subset
      obtain ⟨shown, rendered, occur⟩ := exists_renderSegment lays edit inSource
      rw [List.flatMap_cons, List.flatMap_cons, keptTexts_append, rendered, List.append_assoc]
      exact (occur.append (inductionHypothesis restSubset)).prepend _

/-- What leads up to the first statement holds a comment at the beginning of the text. -/
theorem comment_isPrefix_leading
    (lays : Lays text nodes)
    {segment : Segment}
    (first : (ofNodes text nodes).segments.head? = some segment)
    {node : Node}
    (firstNode : nodes.head? = some node) :
    text.take (commentLength text) <+: segment.leading.slice text := by
  obtain ⟨offset, reached, tiles⟩ := Segment.tiles_ofSpans lays.spans
  have isLast : (Segment.ofSpans text (nodes.map (·.span))).reverse.getLast? = some segment := by
    rw [List.getLast?_reverse]
    exact first
  obtain ⟨last, fits⟩ := tiles.fits_of_getLast? isLast
  have firstSpan : (nodes.map (·.span))[0]? = some node.span := by
    rw [← List.head?_eq_getElem?, List.head?_map, firstNode]
    rfl
  obtain ⟨bound, starts⟩ := lays.spans.of_mem (List.mem_of_getElem? firstSpan)
  have afterComment := Text.commentLength_le_rowStart bound starts
  rw [← fits.body_start node.span firstSpan] at afterComment
  rw [fits.leading_eq, Span.slice, List.drop_zero, Nat.sub_zero]
  exact List.take_prefix_take_left afterComment

theorem commentLength_le_leading
    (lays : Lays text nodes)
    {segment : Segment}
    (first : (ofNodes text nodes).segments.head? = some segment)
    {node : Node}
    (firstNode : nodes.head? = some node) :
    commentLength text ≤ (segment.leading.slice text).length := by
  have comment := (comment_isPrefix_leading lays first firstNode).length_le
  rwa [List.length_take, min_eq_left lays.spans.le] at comment

/-- What is kept occurs in order even if a comment at the beginning is cut off. -/
theorem occurInOrder_drop_render
    (lays : Lays text nodes)
    (edit : Nat → Edit)
    {count : Nat}
    (inComment : count ≤ commentLength text) :
    OccurInOrder (keptTexts text ((ofNodes text nodes).editedStatements edit))
      (((ofNodes text nodes).render edit).drop count) := by
  have noMore : OccurInOrder [] (ofNodes text nodes).trailingText := trivial
  have whole := flatMap_editedSpans lays edit
  cases segments : (ofNodes text nodes).segments with
  | nil =>
      rw [segments] at whole
      rw [← whole]
      trivial
  | cons first rest =>
      have subset : first :: rest ⊆ (ofNodes text nodes).segments := by
        rw [segments]
        exact List.Subset.refl _
      obtain ⟨inSource, restSubset⟩ := List.cons_subset.mp subset
      obtain ⟨shown, rendered, occur⟩ := exists_renderSegment lays edit inSource
      have restOccurs := occurInOrder_flatMap_renderSegment lays edit restSubset
      cases nodes with
      | nil => cases segments
      | cons node nodes =>
          have leading := commentLength_le_leading lays (by rw [segments]; rfl) rfl
          rw [segments, List.flatMap_cons] at whole
          rw [← whole, render, segments, List.flatMap_cons, rendered, List.append_assoc,
            List.append_assoc, List.drop_append_of_le_length (inComment.trans leading),
            keptTexts_append]
          have all := (occur.append restOccurs).append noMore
          rw [List.append_nil, List.append_assoc] at all
          exact all.prepend _

end ParsedSource

end Inliner
