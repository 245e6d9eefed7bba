import Inliner.Proofs.Source.Segments
import Inliner.Proofs.Text.Lines
import Mathlib.Logic.Relation

/-!
# Statements that share lines

A statement stands on every row from that of its first character to that of its last one.  A
segment starts exactly where a statement shares no row with the statement before it, so two
statements belong to one segment exactly if a chain of shared rows links them.
-/

namespace Inliner

open Syntax

/-! ## Rows -/

namespace Text

theorem length_rowStartsFrom (text : Text) (offset : Nat) :
    (rowStartsFrom offset text).length = text.count '\n' := by
  induction text generalizing offset with
  | nil => rfl
  | cons first rest inductionHypothesis =>
      by_cases newline : first = '\n'
      · simp [rowStartsFrom, newline, inductionHypothesis]
      · simp [rowStartsFrom, newline, inductionHypothesis]

/-- A row starts after a line feed. -/
theorem getElem?_of_mem_rowStartsFrom
    {text : Text}
    {base start : Nat}
    (member : start ∈ rowStartsFrom base text) :
    ∃ offset, start = base + offset + 1 ∧ text[offset]? = some '\n' := by
  induction text generalizing base with
  | nil => cases member
  | cons first rest inductionHypothesis =>
      have later :
          start ∈ rowStartsFrom (base + 1) rest →
            ∃ offset, start = base + offset + 1 ∧ (first :: rest)[offset]? = some '\n' := by
        intro inRest
        obtain ⟨offset, place, feed⟩ := inductionHypothesis inRest
        exact ⟨offset + 1, by omega, feed⟩
      rw [rowStartsFrom] at member
      split at member
      next isFeed =>
        rcases List.mem_cons.mp member with rfl | inRest
        · exact ⟨0, rfl, congrArg some isFeed⟩
        · exact later inRest
      next => exact later member

theorem rowStart_of_count_lt
    {text : Text}
    {row : Nat}
    (past : text.count '\n' < row) :
    text.rowStart row = text.length := by
  rw [rowStart, List.getD_eq_getElem?_getD, List.getElem?_eq_none]
  · rfl
  · rw [rowStarts, List.length_cons, length_rowStartsFrom]
    exact past

/-- A row that a text has starts with the text, or after a line feed. -/
theorem rowStart_of_le_count
    {text : Text}
    {row : Nat}
    (known : row ≤ text.count '\n') :
    text.rowStart row = 0 ∨
      ∃ offset, text.rowStart row = offset + 1 ∧ text[offset]? = some '\n' := by
  have inRange : row < (rowStarts text).length := by
    rw [rowStarts, List.length_cons, length_rowStartsFrom]
    omega
  have start : text.rowStart row = (rowStarts text)[row] := by
    rw [rowStart, List.getD_eq_getElem?_getD, List.getElem?_eq_getElem inRange, Option.getD_some]
  rw [start]
  rcases List.mem_cons.mp (List.getElem_mem inRange) with first | later
  · exact Or.inl first
  · obtain ⟨offset, place, feed⟩ := getElem?_of_mem_rowStartsFrom later
    exact Or.inr ⟨offset, by omega, feed⟩

theorem rowStart_le_length (text : Text) (row : Nat) : text.rowStart row ≤ text.length := by
  by_cases known : row ≤ text.count '\n'
  · rcases rowStart_of_le_count known with start | ⟨offset, place, feed⟩
    · omega
    · have inText := (List.getElem?_eq_some_iff.mp feed).1
      omega
  · exact (rowStart_of_count_lt (by omega)).le

/-- What stands before a row that a text has is ended. -/
theorem endsLine_take_rowStart
    {text : Text}
    {row : Nat}
    (known : row ≤ text.count '\n') :
    EndsLine (text.take (text.rowStart row)) := by
  rcases rowStart_of_le_count known with start | ⟨offset, place, feed⟩
  · rw [start]
    exact endsLine_nil
  · intro last isLast
    rw [place, List.take_add_one, feed, Option.toList_some, List.getLast?_concat] at isLast
    exact (Option.some.inj isLast).symm

theorem rowAt_le_count (text : Text) (offset : Nat) : text.rowAt offset ≤ text.count '\n' :=
  (List.take_sublist offset text).count_le '\n'

/-- A row has another one after it if a line feed follows. -/
theorem rowAt_lt_count_iff (text : Text) (offset : Nat) :
    text.rowAt offset < text.count '\n' ↔ '\n' ∈ text.drop offset := by
  have whole : text.count '\n' = text.rowAt offset + (text.drop offset).count '\n' := by
    rw [rowAt, ← List.count_append, List.take_append_drop]
  rw [whole, ← List.count_pos_iff]
  omega

theorem rowAt_succ_of_ne
    {text : Text}
    {offset : Nat}
    (notFeed : text[offset]? ≠ some '\n') :
    text.rowAt (offset + 1) = text.rowAt offset := by
  rw [rowAt, rowAt, List.take_add_one, List.count_append]
  cases found : text[offset]? with
  | none => rfl
  | some character =>
      have different : character ≠ '\n' := by
        rintro rfl
        exact notFeed found
      simp [different]

/-- A line feed, and nothing else, comes right before the start of a row. -/
theorem columnAt_succ_eq_zero_iff
    {text : Text}
    {offset : Nat}
    (inText : offset < text.length) :
    text.columnAt (offset + 1) = 0 ↔ text[offset]? = some '\n' := by
  rw [columnAt, List.take_add_one, List.getElem?_eq_getElem inText, Option.toList_some,
    List.reverse_concat, Option.some.injEq]
  by_cases newline : text[offset] = '\n'
  · simp [newline]
  · simp [newline]

end Text

/-! ## The rows of a statement -/

namespace Span

/-- The offset of the last character of a span; an empty span counts as the character it stands
before. -/
def last (span : Span) : Nat :=
  max span.start (span.stop - 1)

/-- A character of a span stands on a row. -/
def OnRow (span : Span) (text : Text) (row : Nat) : Prop :=
  ∃ offset, span.start ≤ offset ∧ offset ≤ span.last ∧ text.rowAt offset = row

theorem start_le_last (span : Span) : span.start ≤ span.last :=
  Nat.le_max_left _ _

theorem last_le_of_stop_le
    {span : Span}
    {offset : Nat}
    (ordered : span.start ≤ span.stop)
    (bound : span.stop ≤ offset) :
    span.last ≤ offset := by
  rw [last]
  omega

theorem rows_snd
    {span : Span}
    {text : Text}
    (ordered : span.start ≤ span.stop)
    (inText : span.stop ≤ text.length) :
    (span.rows text).2 = text.rowAt span.last := by
  by_cases empty : span.stop = span.start
  · have sameOffset : span.last = span.start := by
      rw [last]
      omega
    simp [rows, empty, sameOffset]
  · obtain ⟨offset, place⟩ : ∃ offset, span.stop = offset + 1 := ⟨span.stop - 1, by omega⟩
    have isLast : span.last = offset := by
      rw [last]
      omega
    have notBefore : text.rowAt span.start ≤ text.rowAt offset := text.rowAt_mono (by omega)
    have inRange : offset < text.length := by omega
    have column := Text.columnAt_succ_eq_zero_iff inRange
    rw [isLast, rows, place]
    by_cases feed : text[offset]? = some '\n'
    · have nextRow := Text.rowAt_succ feed
      rw [if_pos ⟨column.mpr feed, by omega⟩, nextRow]
      exact Nat.add_sub_cancel _ _
    · rw [if_neg (fun atStart => feed (column.mp atStart.1))]
      exact Text.rowAt_succ_of_ne feed

end Span

namespace Syntax.SpansWithin

variable {text : Text} {lower upper : Nat} {spans : List Span} {span : Span}

theorem ordered_of_mem
    (within : SpansWithin text lower upper spans)
    (member : span ∈ spans) :
    span.start ≤ span.stop ∧ span.stop ≤ upper := by
  induction within with
  | nil _ => cases member
  | cons _ ordered _ rest inductionHypothesis =>
      rcases List.mem_cons.mp member with rfl | later
      · exact ⟨ordered, rest.le⟩
      · exact inductionHypothesis later

theorem last_lt_length
    (within : SpansWithin text lower text.length spans)
    (member : span ∈ spans) :
    span.last < text.length := by
  have inText := (within.of_mem member).2.lt_length
  have ordered := within.ordered_of_mem member
  rw [Span.last]
  omega

theorem pairwise (within : SpansWithin text lower upper spans) :
    spans.Pairwise fun first second => first.last ≤ second.start := by
  induction within with
  | nil _ => exact .nil
  | cons _ ordered _ rest inductionHypothesis =>
      refine .cons ?_ inductionHypothesis
      intro later member
      exact Span.last_le_of_stop_le ordered (rest.of_mem member).1

theorem last_le_start
    (within : SpansWithin text lower upper spans)
    {first second : Nat}
    {one other : Span}
    (earlier : first < second)
    (found : spans[first]? = some one)
    (otherFound : spans[second]? = some other) :
    one.last ≤ other.start := by
  obtain ⟨firstBound, rfl⟩ := List.getElem?_eq_some_iff.mp found
  obtain ⟨secondBound, rfl⟩ := List.getElem?_eq_some_iff.mp otherFound
  exact List.pairwise_iff_getElem.mp within.pairwise first second firstBound secondBound earlier

end Syntax.SpansWithin

/-! ## Where segments start -/

namespace Segment

/-- The rows of the statements of a segment: it ends with that of its last statement, each of its
statements but the first one shares a row with the one before, and the first one does not. -/
structure FollowsRows (text : Text) (spans : List Span) (segment : Segment) : Prop where
  endLine_eq : ∀ number span,
    segment.statements.stop = number + 1 → spans[number]? = some span →
      segment.endLine = text.rowAt span.last + 1
  joined : ∀ number before span,
    segment.statements.start ≤ number → number + 1 < segment.statements.stop →
      spans[number]? = some before → spans[number + 1]? = some span →
        text.rowAt span.start ≤ text.rowAt before.last
  apart : ∀ number before span,
    segment.statements.start = number + 1 →
      spans[number]? = some before → spans[number + 1]? = some span →
        text.rowAt before.last < text.rowAt span.start

variable {text : Text} {spans : List Span} {segments : List Segment} {lower : Nat}

theorem followsRows_ofRows
    (within : SpansWithin text lower text.length spans)
    {consumed index : Nat}
    {span : Span}
    (next : spans[index]? = some span)
    (newRow : ∀ number before, index = number + 1 → spans[number]? = some before →
      text.rowAt before.last < text.rowAt span.start) :
    (ofRows text consumed index (span.rows text)).FollowsRows text spans where
  endLine_eq := by
    intro number other isLast found
    obtain rfl : index = number := Nat.succ.inj isLast
    obtain rfl := Option.some.inj (next.symm.trans found)
    have ordered := within.ordered_of_mem (List.mem_of_getElem? next)
    rw [← Span.rows_snd ordered.1 ordered.2]
    rfl
  joined := by
    intro number before other lowerBound upperBound
    simp only [ofRows] at lowerBound upperBound
    omega
  apart := by
    intro number before other isFirst found nextFound
    obtain rfl : index = number + 1 := isFirst
    obtain rfl := Option.some.inj (next.symm.trans nextFound)
    exact newRow number before rfl found

theorem FollowsRows.extend
    (within : SpansWithin text lower text.length spans)
    {segment : Segment}
    (follows : segment.FollowsRows text spans)
    (hasStatement : segment.statements.start < segment.statements.stop)
    {span : Span}
    (next : spans[segment.statements.stop]? = some span)
    (sameRow : (span.rows text).1 < segment.endLine) :
    (extend text segment segment.statements.stop (span.rows text)).FollowsRows text spans := by
  obtain ⟨latest, isLatest⟩ : ∃ latest, segment.statements.stop = latest + 1 :=
    ⟨segment.statements.stop - 1, by omega⟩
  have inRange := (List.getElem?_eq_some_iff.mp next).1
  have latestFound : spans[latest]? = some spans[latest] := List.getElem?_eq_getElem (by omega)
  have endLine := follows.endLine_eq latest _ isLatest latestFound
  rw [span.rows_fst, endLine] at sameRow
  refine ⟨?_, ?_, follows.apart⟩
  · intro number other isLast found
    obtain rfl : segment.statements.stop = number := Nat.succ.inj isLast
    obtain rfl := Option.some.inj (next.symm.trans found)
    have ordered := within.ordered_of_mem (List.mem_of_getElem? next)
    have startRow := text.rowAt_mono (within.last_le_start (by omega) latestFound next)
    have lastRow := text.rowAt_mono span.start_le_last
    simp only [Segment.extend, endLine, Span.rows_snd ordered.1 ordered.2]
    omega
  · intro number before other lowerBound upperBound found nextFound
    simp only [Segment.extend] at lowerBound upperBound
    by_cases isLast : number = latest
    · subst isLast
      obtain rfl := Option.some.inj (latestFound.symm.trans found)
      rw [isLatest] at next
      obtain rfl := Option.some.inj (next.symm.trans nextFound)
      omega
    · exact follows.joined number before other lowerBound (by omega) found nextFound

theorem Tiles.followsRows_push
    (within : SpansWithin text lower text.length spans)
    {index offset reached : Nat}
    (tiles : Tiles text spans segments index offset reached)
    (follow : ∀ segment ∈ segments, segment.FollowsRows text spans)
    {span : Span}
    (next : spans[index]? = some span) :
    ∀ segment ∈ Segment.push text segments index (span.rows text),
      segment.FollowsRows text spans := by
  intro segment member
  cases tiles with
  | nil =>
      rw [Segment.push, List.mem_singleton] at member
      rw [member]
      exact followsRows_ofRows within next (fun number _ isNext => nomatch isNext)
  | @cons earlier latest start _ _ _ _ fits =>
      have latestFollows := follow latest List.mem_cons_self
      have hasStatement : latest.statements.start < latest.statements.stop :=
        fits.start_eq ▸ fits.start_lt
      rw [Segment.push] at member
      split at member
      next sameRow =>
        rcases List.mem_cons.mp member with rfl | before
        · exact latestFollows.extend within hasStatement next sameRow
        · exact follow segment (List.mem_cons_of_mem _ before)
      next newRow =>
        rcases List.mem_cons.mp member with rfl | before
        · apply followsRows_ofRows within next
          intro number other isNext found
          rw [span.rows_fst, latestFollows.endLine_eq number other isNext found] at newRow
          omega
        · exact follow segment before

theorem Tiles.followsRows_pushAll
    (within : SpansWithin text lower text.length spans)
    {index offset reached : Nat}
    {rest : List Span}
    (tiles : Tiles text spans segments index offset reached)
    (follow : ∀ segment ∈ segments, segment.FollowsRows text spans)
    (remaining : spans.drop index = rest)
    (restWithin : SpansWithin text reached text.length rest) :
    ∀ segment ∈ Segment.pushAll text segments index rest, segment.FollowsRows text spans := by
  induction rest generalizing segments index offset reached with
  | nil => exact follow
  | cons span rest inductionHypothesis =>
      cases restWithin with
      | cons startBound spanBound starts laterWithin =>
          have next : spans[index]? = some span := by
            rw [← List.head?_drop, remaining]
            rfl
          have laterRemaining : spans.drop (index + 1) = rest := by
            rw [← List.drop_drop, remaining]
            rfl
          obtain ⟨further, pushed⟩ := tiles.push next startBound spanBound laterWithin.le starts
          exact inductionHypothesis pushed (tiles.followsRows_push within follow next)
            laterRemaining laterWithin

theorem followsRows_of_mem_ofSpans
    (within : SpansWithin text lower text.length spans)
    {segment : Segment}
    (member : segment ∈ ofSpans text spans) :
    segment.FollowsRows text spans :=
  Tiles.nil.followsRows_pushAll within (fun _ impossible => nomatch impossible) List.drop_zero
    (within.mono (Nat.zero_le _) (le_refl _)) segment (List.mem_reverse.mp member)

end Segment

/-! ## Statements of one segment -/

/-- Some row holds characters of the spans with two numbers. -/
def SharesRow (text : Text) (spans : List Span) (first second : Nat) : Prop :=
  ∃ one ∈ spans[first]?, ∃ other ∈ spans[second]?, ∃ row,
    one.OnRow text row ∧ other.OnRow text row

theorem SharesRow.symm
    {text : Text}
    {spans : List Span}
    {first second : Nat}
    (shares : SharesRow text spans first second) :
    SharesRow text spans second first := by
  obtain ⟨one, found, other, otherFound, row, onRow, otherOnRow⟩ := shares
  exact ⟨other, otherFound, one, found, row, otherOnRow, onRow⟩

instance (text : Text) (spans : List Span) : Std.Symm (SharesRow text spans) :=
  ⟨fun _ _ => SharesRow.symm⟩

theorem Syntax.SpansWithin.sharesRow_iff
    {text : Text}
    {lower upper : Nat}
    {spans : List Span}
    (within : SpansWithin text lower upper spans)
    {first second : Nat}
    {one other : Span}
    (earlier : first < second)
    (found : spans[first]? = some one)
    (otherFound : spans[second]? = some other) :
    SharesRow text spans first second ↔ text.rowAt other.start ≤ text.rowAt one.last := by
  constructor
  · rintro ⟨_, isOne, _, isOther, row, ⟨place, _, beforeLast, onRow⟩, otherPlace, notBefore, _,
      otherOnRow⟩
    obtain rfl := Option.some.inj (found.symm.trans isOne)
    obtain rfl := Option.some.inj (otherFound.symm.trans isOther)
    have rowBound := text.rowAt_mono notBefore
    have lastBound := text.rowAt_mono beforeLast
    omega
  · intro bound
    have startBound := text.rowAt_mono (within.last_le_start earlier found otherFound)
    refine ⟨one, found, other, otherFound, text.rowAt one.last, ?_, ?_⟩
    · exact ⟨one.last, one.start_le_last, le_refl _, rfl⟩
    · exact ⟨other.start, le_refl _, other.start_le_last, by omega⟩

namespace ParsedSource

variable {text : Text} {nodes : List Node}

theorem getElem?_map_span
    {number : Nat}
    (known : number < nodes.length) :
    (nodes.map (·.span))[number]? = some nodes[number].span := by
  rw [List.getElem?_map, List.getElem?_eq_getElem known]
  rfl

theorem holdsStatement_of_between
    {source : ParsedSource}
    {index first number second : Nat}
    (firstHeld : source.HoldsStatement index first)
    (secondHeld : source.HoldsStatement index second)
    (notBefore : first ≤ number)
    (notAfter : number ≤ second) :
    source.HoldsStatement index number := by
  obtain ⟨segment, found, lowerBound, _⟩ := firstHeld
  obtain ⟨other, otherFound, _, upperBound⟩ := secondHeld
  obtain rfl := Option.some.inj (found.symm.trans otherFound)
  exact ⟨segment, found, by omega, by omega⟩

/-- A statement belongs to the segment of the statement before it exactly if the two share a
row. -/
theorem holdsStatement_succ_iff
    (lays : Lays text nodes)
    {index number : Nat}
    (known : number + 1 < nodes.length)
    (holds : (ofNodes text nodes).HoldsStatement index number) :
    (ofNodes text nodes).HoldsStatement index (number + 1) ↔
      SharesRow text (nodes.map (·.span)) number (number + 1) := by
  have follow : ∀ segment ∈ (ofNodes text nodes).segments,
      segment.FollowsRows text (nodes.map (·.span)) :=
    fun _ => Segment.followsRows_of_mem_ofSpans lays.spans
  have found := getElem?_map_span (Nat.lt_of_succ_lt known)
  have nextFound := getElem?_map_span known
  rw [lays.spans.sharesRow_iff (Nat.lt_succ_self number) found nextFound]
  constructor
  · rintro ⟨segment, inSegments, _, upperBound⟩
    obtain ⟨same, sameFound, lowerBound, _⟩ := holds
    obtain rfl := Option.some.inj (inSegments.symm.trans sameFound)
    exact (follow segment (List.mem_of_getElem? inSegments)).joined number _ _ lowerBound
      upperBound found nextFound
  · intro sameRow
    obtain ⟨other, nextHolds⟩ := exists_holdsStatement lays known
    obtain ⟨segment, inSegments, lowerBound, upperBound⟩ := nextHolds
    have notFirst : segment.statements.start ≠ number + 1 := by
      intro isFirst
      have newRow := (follow segment (List.mem_of_getElem? inSegments)).apart number _ _ isFirst
        found nextFound
      omega
    have alsoHolds : (ofNodes text nodes).HoldsStatement other number :=
      ⟨segment, inSegments, by omega, by omega⟩
    rw [holdsStatement_unique lays (by omega) holds alsoHolds]
    exact ⟨segment, inSegments, lowerBound, upperBound⟩

/-- Rows that two statements share are those of all statements between them. -/
theorem holdsStatement_of_sharesRow
    (lays : Lays text nodes)
    {index first second : Nat}
    (earlier : first ≤ second)
    (holds : (ofNodes text nodes).HoldsStatement index first)
    (shares : SharesRow text (nodes.map (·.span)) first second) :
    (ofNodes text nodes).HoldsStatement index second := by
  have ⟨one, found, other, otherFound, _⟩ := shares
  have known : second < nodes.length := by
    have bound := (List.getElem?_eq_some_iff.mp otherFound).1
    rwa [List.length_map] at bound
  -- Each step goes to a statement that starts no later and from one that ends no earlier.
  have reached : ∀ number, first ≤ number → number ≤ second →
      (ofNodes text nodes).HoldsStatement index number := by
    intro number notBefore
    induction number, notBefore using Nat.le_induction with
    | base => exact fun _ => holds
    | succ number notBefore inductionHypothesis =>
        intro notAfter
        have nextKnown : number + 1 < nodes.length := Nat.lt_of_le_of_lt notAfter known
        have here := getElem?_map_span (Nat.lt_of_succ_lt nextKnown)
        have next := getElem?_map_span nextKnown
        rw [holdsStatement_succ_iff lays (by omega) (inductionHypothesis (by omega)),
          lays.spans.sharesRow_iff (Nat.lt_succ_self number) here next]
        have wide := (lays.spans.sharesRow_iff (by omega) found otherFound).mp shares
        have startBound : nodes[number + 1].span.start ≤ other.start := by
          rcases Nat.eq_or_lt_of_le notAfter with rfl | before
          · rw [Option.some.inj (next.symm.trans otherFound)]
          · exact (Span.start_le_last _).trans (lays.spans.last_le_start before next otherFound)
        have lastBound : one.last ≤ nodes[number].span.last := by
          rcases Nat.eq_or_lt_of_le notBefore with rfl | before
          · obtain rfl := Option.some.inj (here.symm.trans found)
            exact le_refl _
          · exact (lays.spans.last_le_start before found here).trans (Span.start_le_last _)
        exact ((text.rowAt_mono startBound).trans wide).trans (text.rowAt_mono lastBound)
  exact reached second earlier (le_refl _)

theorem reflTransGen_sharesRow_of_holds
    (lays : Lays text nodes)
    {index first second : Nat}
    (known : second < nodes.length)
    (earlier : first ≤ second)
    (firstHeld : (ofNodes text nodes).HoldsStatement index first)
    (secondHeld : (ofNodes text nodes).HoldsStatement index second) :
    Relation.ReflTransGen (SharesRow text (nodes.map (·.span))) first second := by
  induction second, earlier using Nat.le_induction with
  | base => exact .refl
  | succ number notBefore inductionHypothesis =>
      have held := holdsStatement_of_between firstHeld secondHeld notBefore (Nat.le_succ number)
      have shares := (holdsStatement_succ_iff lays known held).mp secondHeld
      exact (inductionHypothesis (by omega) held).tail shares

/-- Two statements belong to one segment exactly if a chain of shared rows links them. -/
theorem sameSegment_iff
    (lays : Lays text nodes)
    {first second : Nat}
    (firstKnown : first < nodes.length)
    (secondKnown : second < nodes.length) :
    (∃ index,
      (ofNodes text nodes).HoldsStatement index first ∧
        (ofNodes text nodes).HoldsStatement index second) ↔
      Relation.ReflTransGen (SharesRow text (nodes.map (·.span))) first second := by
  constructor
  · rintro ⟨index, firstHeld, secondHeld⟩
    rcases Nat.le_total first second with earlier | later
    · exact reflTransGen_sharesRow_of_holds lays secondKnown earlier firstHeld secondHeld
    · have back := reflTransGen_sharesRow_of_holds lays firstKnown later secondHeld firstHeld
      exact Std.Symm.symm _ _ back
  · intro linked
    induction linked with
    | refl =>
        obtain ⟨index, held⟩ := exists_holdsStatement lays firstKnown
        exact ⟨index, held, held⟩
    | @tail between last _ shares inductionHypothesis =>
        have ⟨_, found, _⟩ := shares
        have betweenKnown : between < nodes.length := by
          have bound := (List.getElem?_eq_some_iff.mp found).1
          rwa [List.length_map] at bound
        obtain ⟨index, firstHeld, betweenHeld⟩ := inductionHypothesis betweenKnown
        rcases Nat.le_total between last with earlier | later
        · exact ⟨index, firstHeld, holdsStatement_of_sharesRow lays earlier betweenHeld shares⟩
        · obtain ⟨other, lastHeld⟩ := exists_holdsStatement lays secondKnown
          have alsoHeld := holdsStatement_of_sharesRow lays later lastHeld shares.symm
          rw [holdsStatement_unique lays betweenKnown betweenHeld alsoHeld] at firstHeld
          exact ⟨other, firstHeld, lastHeld⟩

end ParsedSource

end Inliner
