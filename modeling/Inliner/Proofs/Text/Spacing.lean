import Inliner.Proofs.File.Paths
import Inliner.Proofs.Text.BlankLines
import Mathlib.Data.List.Chain

/-!
# The lines of a normal form

The normal form of a text that shows something has the non-blank lines of the text as they are, and
one empty line between two of them wherever the text has blank lines in between.

A line is read without one carriage return before its line feed.  So a normal form is read back
without the carriage returns at the ends of its lines, and another pass takes one of them away from
each line.
-/

namespace Inliner.Text

/-! ## Lines that show something -/

/-- The lines that are not blank, each with its row. -/
def shownLines (text : Text) : List (Text × Nat) :=
  (lines text).zipIdx.filter (!isBlank ·.1)

/-- Lines as they are written below a row.  An empty line comes before each line that does not
stand in the row right below the one before. -/
def spacedBelow (row : Nat) : List (Text × Nat) → List Text
  | [] => []
  | (line, next) :: rest =>
      (if row + 1 < next then [[]] else []) ++ line :: spacedBelow next rest

/-- Lines as they are written, with one empty line between two of them that do not stand in
neighbouring rows.  Between two lines that are shown, the rows left out are those of blank lines. -/
def spaced : List (Text × Nat) → List Text
  | [] => []
  | (line, row) :: rest => line :: spacedBelow row rest

theorem squeeze_eq_spacedBelow
    {row start : Nat}
    (above : row < start)
    (lines : List Text) :
    squeeze true (decide (row + 1 < start)) lines =
      spacedBelow row ((lines.zipIdx start).filter (!isBlank ·.1)) := by
  induction lines generalizing row start with
  | nil => rfl
  | cons line rest inductionHypothesis =>
      rw [List.zipIdx_cons]
      by_cases blank : isBlank line = true
      · have gap : decide (row + 1 < start + 1) = true := decide_eq_true (by omega)
        have later := inductionHypothesis (Nat.lt_succ_of_lt above)
        rw [gap] at later
        rw [squeeze, if_pos blank, List.filter_cons_of_neg (by simp [blank]), later]
      · have noGap : decide (start + 1 < start + 1) = false := decide_eq_false (by omega)
        have later := inductionHypothesis (Nat.lt_succ_self start)
        rw [noGap] at later
        rw [squeeze, if_neg blank, List.filter_cons_of_pos (by simp [blank]), spacedBelow, later]
        by_cases apart : row + 1 < start
        · simp [apart]
        · simp [apart]

theorem squeeze_eq_spaced (start : Nat) (lines : List Text) :
    squeeze false false lines = spaced ((lines.zipIdx start).filter (!isBlank ·.1)) := by
  induction lines generalizing start with
  | nil => rfl
  | cons line rest inductionHypothesis =>
      rw [List.zipIdx_cons]
      by_cases blank : isBlank line = true
      · rw [squeeze, if_pos blank, List.filter_cons_of_neg (by simp [blank])]
        exact inductionHypothesis (start + 1)
      · have noGap : decide (start + 1 < start + 1) = false := decide_eq_false (by omega)
        have later := squeeze_eq_spacedBelow (Nat.lt_succ_self start) rest
        rw [noGap] at later
        rw [squeeze, if_neg blank, List.filter_cons_of_pos (by simp [blank]), spaced, later]
        rfl

/-! ## Lines that are written -/

theorem filter_squeeze
    (started gap : Bool)
    (lines : List Text) :
    (squeeze started gap lines).filter (!isBlank ·) = lines.filter (!isBlank ·) := by
  induction lines generalizing started gap with
  | nil => rfl
  | cons line rest inductionHypothesis =>
      by_cases blank : isBlank line = true
      · rw [squeeze, if_pos blank, List.filter_cons_of_neg (by simp [blank])]
        exact inductionHypothesis started started
      · have noGap : (if gap then [[]] else [] : List Text).filter (!isBlank ·) = [] := by
          cases gap <;> rfl
        rw [squeeze, if_neg blank, List.filter_append, noGap, List.nil_append,
          List.filter_cons_of_pos (by simp [blank]), List.filter_cons_of_pos (by simp [blank]),
          inductionHypothesis]

/-- Of two lines that are written one below the other, one is not blank. -/
theorem isChain_squeeze
    (started gap : Bool)
    (lines : List Text) :
    (squeeze started gap lines).IsChain fun above below =>
      isBlank above = false ∨ isBlank below = false := by
  induction lines generalizing started gap with
  | nil => exact List.IsChain.nil
  | cons line rest inductionHypothesis =>
      by_cases blank : isBlank line = true
      · rw [squeeze, if_pos blank]
        exact inductionHypothesis started started
      · have shown : isBlank line = false := by simpa using blank
        have fromHere : (line :: squeeze true false rest).IsChain fun above below =>
            isBlank above = false ∨ isBlank below = false := by
          rw [List.isChain_cons]
          exact ⟨fun _ _ => Or.inl shown, inductionHypothesis true false⟩
        rw [squeeze, if_neg blank]
        cases gap with
        | false => exact fromHere
        | true => exact fromHere.cons_cons (Or.inr shown)

/-- The first line that is written is not blank. -/
theorem exists_first_squeeze
    {lines : List Text}
    (shown : ¬ ∀ line ∈ lines, isBlank line = true) :
    ∃ first rest, squeeze false false lines = first :: rest ∧ isBlank first = false := by
  induction lines with
  | nil => exact absurd (fun _ impossible => nomatch impossible) shown
  | cons line rest inductionHypothesis =>
      by_cases blank : isBlank line = true
      · rw [squeeze, if_pos blank]
        apply inductionHypothesis
        intro allBlank
        exact shown (List.forall_mem_cons.mpr ⟨blank, allBlank⟩)
      · rw [squeeze, if_neg blank]
        exact ⟨line, _, rfl, by simpa using blank⟩

/-- The last line that is written is not blank. -/
theorem isBlank_of_getLast?_squeeze
    {started gap : Bool}
    {lines : List Text}
    {line : Text}
    (last : (squeeze started gap lines).getLast? = some line) :
    isBlank line = false := by
  induction lines generalizing started gap with
  | nil => cases last
  | cons other rest inductionHypothesis =>
      by_cases blank : isBlank other = true
      · rw [squeeze, if_pos blank] at last
        exact inductionHypothesis last
      · rw [squeeze, if_neg blank, List.getLast?_append, List.getLast?_cons] at last
        cases later : (squeeze true false rest).getLast? with
        | none =>
            have same : other = line := by simpa [later] using last
            simpa [← same] using blank
        | some final =>
            have same : final = line := by simpa [later] using last
            exact inductionHypothesis (same ▸ later)

theorem mem_squeeze_iff
    {started gap : Bool}
    {lines : List Text}
    {line : Text}
    (shown : isBlank line = false) :
    line ∈ squeeze started gap lines ↔ line ∈ lines := by
  have sameShown := congrArg (line ∈ ·) (filter_squeeze started gap lines)
  simpa [List.mem_filter, shown] using sameShown

/-- The blank lines that are written are empty. -/
theorem eq_nil_of_mem_squeeze
    {started gap : Bool}
    {lines : List Text}
    {line : Text}
    (member : line ∈ squeeze started gap lines)
    (blank : isBlank line = true) :
    line = [] := by
  induction lines generalizing started gap with
  | nil => cases member
  | cons other rest inductionHypothesis =>
      by_cases otherBlank : isBlank other = true
      · rw [squeeze, if_pos otherBlank] at member
        exact inductionHypothesis member
      · rw [squeeze, if_neg otherBlank] at member
        rcases List.mem_append.mp member with inGap | here
        · cases gap with
          | false => cases inGap
          | true => exact List.mem_singleton.mp inGap
        · rcases List.mem_cons.mp here with rfl | later
          · exact absurd blank otherBlank
          · exact inductionHypothesis later

/-! ## Reading written lines -/

theorem splitAt_unlines
    {lines : List Text}
    (noFeeds : ∀ line ∈ lines, '\n' ∉ line) :
    splitAt '\n' (unlines lines) = lines ++ [[]] := by
  induction lines with
  | nil => rfl
  | cons line rest inductionHypothesis =>
      rw [unlines_cons, splitAt_append_separator,
        splitAt_of_not_mem (noFeeds line List.mem_cons_self),
        inductionHypothesis fun other member => noFeeds other (List.mem_cons_of_mem _ member)]
      rfl

theorem unlines_injective
    {first second : List Text}
    (firstNoFeeds : ∀ line ∈ first, '\n' ∉ line)
    (secondNoFeeds : ∀ line ∈ second, '\n' ∉ line)
    (same : unlines first = unlines second) :
    first = second := by
  have samePieces := congrArg (splitAt '\n') same
  rw [splitAt_unlines firstNoFeeds, splitAt_unlines secondNoFeeds] at samePieces
  exact List.append_cancel_right samePieces

/-- Three line feeds in a row stand at two empty lines, one below the other. -/
theorem exists_of_feeds_infix
    {lines : List Text}
    (noFeeds : ∀ line ∈ lines, '\n' ∉ line)
    (inside : ['\n', '\n', '\n'] <:+: unlines lines) :
    ∃ before after, lines = before ++ [] :: [] :: after := by
  obtain ⟨front, back, split⟩ := inside
  have pieces := splitAt_unlines noFeeds
  have cut : splitAt '\n' (front ++ ['\n', '\n', '\n'] ++ back) =
      splitAt '\n' front ++ [] :: [] :: splitAt '\n' back := by
    rw [List.append_assoc]
    simp only [List.cons_append, List.nil_append]
    rw [splitAt_append_separator]
    rfl
  rw [← split, cut] at pieces
  obtain ⟨initial, final, isLast⟩ : ∃ initial final, splitAt '\n' back = initial ++ [final] :=
    ⟨_, _, (List.dropLast_concat_getLast (splitAt_ne_nil back)).symm⟩
  refine ⟨splitAt '\n' front, initial, ?_⟩
  rw [isLast, ← List.cons_append, ← List.cons_append, ← List.append_assoc] at pieces
  exact (List.append_inj_left' pieces rfl).symm

/-- Lines with a line feed after each end with exactly one if the last line is not empty. -/
theorem exists_of_getLast?_unlines
    {lines : List Text}
    {last : Text}
    (isLast : lines.getLast? = some last)
    (notEmpty : last ≠ [])
    (noFeed : '\n' ∉ last) :
    ∃ front, unlines lines = front ++ ['\n'] ∧ front.getLast? ≠ some '\n' := by
  obtain ⟨initial, rfl⟩ := List.getLast?_eq_some_iff.mp isLast
  refine ⟨unlines initial ++ last, by simp [unlines], ?_⟩
  rw [List.getLast?_append_of_ne_nil _ notEmpty]
  intro ends
  exact noFeed (List.mem_of_getLast? ends)

theorem ne_nil_of_shown
    {line : Text}
    (shown : isBlank line = false) :
    line ≠ [] := by
  rintro rfl
  cases shown

/-! ## The normal form of a text, line by line -/

theorem normalizeBlankLines_of_blank
    {text : Text}
    (blank : ∀ line ∈ lines text, isBlank line = true) :
    normalizeBlankLines text = ['\n'] := by
  rw [normalizeBlankLines, writeLines_of_blank false false blank]

theorem normalizeBlankLines_of_shown
    {text : Text}
    (shown : ¬ ∀ line ∈ lines text, isBlank line = true) :
    normalizeBlankLines text = unlines (squeeze false false (lines text)) := by
  rcases normalizeBlankLines_eq text with ⟨_, nothing⟩ | ⟨same, _⟩
  · obtain ⟨first, rest, written, _⟩ := exists_first_squeeze shown
    rw [writeLines_eq_unlines, written, unlines_cons] at nothing
    simp at nothing
  · exact same

/-- The normal form of a text of blank lines is one line feed.  Any other normal form is made of the
non-blank lines of the text, in their order and as they are, with a line feed after each and one
empty line between two of them exactly if there are blank lines between them.  It ends with one line
feed, starts with a line that shows something, has no two empty lines one below the other, and has
the same non-blank lines as the text. -/
theorem normalizeBlankLines_spaces_shownLines (text : Text) :
    (normalizeBlankLines text =
        if ∀ line ∈ lines text, isBlank line = true then
          ['\n']
        else
          unlines (spaced (shownLines text))) ∧
      (∃ front,
        normalizeBlankLines text = front ++ ['\n'] ∧ front.getLast? ≠ some '\n') ∧
      ((normalizeBlankLines text).head? = some '\n' ↔
        ∀ line ∈ lines text, isBlank line = true) ∧
      ¬ ['\n', '\n', '\n'] <:+: normalizeBlankLines text ∧
      (splitAt '\n' (normalizeBlankLines text)).filter (!isBlank ·) =
        (lines text).filter (!isBlank ·) := by
  by_cases blank : ∀ line ∈ lines text, isBlank line = true
  · have noneShown : (lines text).filter (!isBlank ·) = [] := by
      rw [List.filter_eq_nil_iff]
      intro line member
      simp [blank line member]
    rw [normalizeBlankLines_of_blank blank, if_pos blank, noneShown]
    exact ⟨rfl, ⟨[], rfl, by simp⟩, iff_of_true rfl blank, by decide, by decide⟩
  · have noFeeds : ∀ line ∈ squeeze false false (lines text), '\n' ∉ line := fun _ =>
      not_mem_of_mem_squeeze
    obtain ⟨first, rest, written, firstShown⟩ := exists_first_squeeze blank
    have isLast : (squeeze false false (lines text)).getLast? = some _ :=
      List.getLast?_eq_some_getLast (written ▸ List.cons_ne_nil first rest)
    have lastShown := isBlank_of_getLast?_squeeze isLast
    rw [normalizeBlankLines_of_shown blank, if_neg blank]
    refine ⟨?_, ?_, ?_, ?_, ?_⟩
    · rw [squeeze_eq_spaced 0]
      rfl
    · exact exists_of_getLast?_unlines isLast (ne_nil_of_shown lastShown)
        (noFeeds _ (List.mem_of_getLast? isLast))
    · rw [written, unlines_cons,
        List.head?_append_of_ne_nil _ (ne_nil_of_shown firstShown)]
      constructor
      · intro starts
        have noFeed := noFeeds first (written ▸ List.mem_cons_self)
        exact absurd (List.mem_of_mem_head? starts) noFeed
      · intro allBlank
        exact absurd allBlank blank
    · intro inside
      obtain ⟨before, after, split⟩ := exists_of_feeds_infix noFeeds inside
      have chain := isChain_squeeze false false (lines text)
      rw [List.isChain_iff_forall_rel_of_append_cons_cons] at chain
      rcases chain split with shown | shown <;> cases shown
    · rw [splitAt_unlines noFeeds, List.filter_append, filter_squeeze]
      exact List.append_nil _

example :
    normalizeBlankLines "\n \na\r\n\n\t\n b \nc".toList = "a\n\n b \nc\n".toList := by
  decide

/-! ## Another pass -/

theorem withoutReturn_eq_self_iff {line : Text} :
    withoutReturn line = line ↔ line.getLast? ≠ some '\r' := by
  constructor
  · rintro same isLast
    obtain ⟨front, rfl⟩ := List.getLast?_eq_some_iff.mp isLast
    rw [withoutReturn_concat] at same
    simpa using congrArg List.length same
  · exact withoutReturn_of_ne

theorem isBlank_withoutReturn (line : Text) : isBlank (withoutReturn line) = isBlank line := by
  by_cases isLast : line.getLast? = some '\r'
  · obtain ⟨front, rfl⟩ := List.getLast?_eq_some_iff.mp isLast
    have blankReturn : isBlank ['\r'] = true := by decide
    rw [withoutReturn_concat, isBlank_append, blankReturn, Bool.and_true]
  · rw [withoutReturn_of_ne isLast]

theorem not_mem_withoutReturn
    {line : Text}
    (noFeed : '\n' ∉ line) :
    '\n' ∉ withoutReturn line := by
  unfold withoutReturn
  split
  · exact fun member => noFeed (List.dropLast_subset line member)
  · exact noFeed

theorem squeeze_map
    {change : Text → Text}
    (sameBlank : ∀ line, isBlank (change line) = isBlank line)
    (keepsEmpty : change [] = [])
    (started gap : Bool)
    (lines : List Text) :
    squeeze started gap (lines.map change) = (squeeze started gap lines).map change := by
  induction lines generalizing started gap with
  | nil => rfl
  | cons line rest inductionHypothesis =>
      rw [List.map_cons, squeeze, squeeze, sameBlank, inductionHypothesis, inductionHypothesis]
      by_cases blank : isBlank line = true
      · rw [if_pos blank, if_pos blank]
      · rw [if_neg blank, if_neg blank]
        cases gap <;> simp [keepsEmpty]

section Passes

variable (passes : Nat)

theorem isBlank_iterate_withoutReturn (line : Text) :
    isBlank (withoutReturn^[passes] line) = isBlank line := by
  induction passes with
  | zero => rfl
  | succ passes inductionHypothesis =>
      rw [Function.iterate_succ_apply', isBlank_withoutReturn, inductionHypothesis]

theorem not_mem_iterate_withoutReturn
    {line : Text}
    (noFeed : '\n' ∉ line) :
    '\n' ∉ withoutReturn^[passes] line := by
  induction passes with
  | zero => exact noFeed
  | succ passes inductionHypothesis =>
      rw [Function.iterate_succ_apply']
      exact not_mem_withoutReturn inductionHypothesis

theorem iterate_withoutReturn_of_ne
    {line : Text}
    (noReturn : line.getLast? ≠ some '\r') :
    withoutReturn^[passes] line = line :=
  Function.iterate_fixed (withoutReturn_of_ne noReturn) passes

/-- A carriage return is left at the end of a line exactly if there have been more of them than are
taken away. -/
theorem getLast?_iterate_withoutReturn (line : Text) :
    (withoutReturn^[passes] line).getLast? = some '\r' ↔
      List.replicate (passes + 1) '\r' <:+ line := by
  induction passes generalizing line with
  | zero =>
      rw [Function.iterate_zero, id_eq, List.getLast?_eq_some_iff]
      exact exists_congr fun front => eq_comm
  | succ passes inductionHypothesis =>
      rw [Function.iterate_succ_apply]
      by_cases isLast : line.getLast? = some '\r'
      · obtain ⟨front, rfl⟩ := List.getLast?_eq_some_iff.mp isLast
        rw [withoutReturn_concat, inductionHypothesis, List.replicate_succ' (n := passes + 1),
          List.suffix_append_inj_of_length_eq rfl]
        simp
      · rw [withoutReturn_of_ne isLast, iterate_withoutReturn_of_ne passes isLast]
        refine iff_of_false isLast ?_
        rintro ⟨front, rfl⟩
        apply isLast
        rw [List.replicate_succ', ← List.append_assoc, List.getLast?_concat]

/-- The lines that are written in a pass, where some passes have been made before it. -/
def passLines (text : Text) : List Text :=
  (squeeze false false (lines text)).map withoutReturn^[passes]

theorem not_mem_of_mem_passLines
    {text line : Text}
    (member : line ∈ passLines passes text) :
    '\n' ∉ line := by
  obtain ⟨written, isWritten, rfl⟩ := List.mem_map.mp member
  exact not_mem_iterate_withoutReturn passes (not_mem_of_mem_squeeze isWritten)

theorem lines_unlines_passLines (text : Text) :
    lines (unlines (passLines passes text)) = passLines (passes + 1) text := by
  rw [lines_unlines_eq_map fun _ => not_mem_of_mem_passLines passes, passLines, List.map_map,
    ← Function.iterate_succ']
  rfl

theorem exists_shown_passLines
    {text : Text}
    (shown : ¬ ∀ line ∈ lines text, isBlank line = true) :
    ¬ ∀ line ∈ passLines passes text, isBlank line = true := by
  intro allBlank
  obtain ⟨first, rest, written, firstShown⟩ := exists_first_squeeze shown
  have firstBlank := allBlank (withoutReturn^[passes] first)
    (List.mem_map_of_mem (written ▸ List.mem_cons_self))
  rw [isBlank_iterate_withoutReturn, firstShown] at firstBlank
  cases firstBlank

theorem squeeze_passLines (text : Text) :
    squeeze false false (passLines passes text) = passLines passes text := by
  rw [passLines, squeeze_map (isBlank_iterate_withoutReturn passes)
    (iterate_withoutReturn_of_ne passes (by simp)), squeeze_squeeze id]

/-- Each pass writes the same lines, without one carriage return at the end of each. -/
theorem iterate_normalizeBlankLines
    {text : Text}
    (shown : ¬ ∀ line ∈ lines text, isBlank line = true) :
    normalizeBlankLines^[passes + 1] text = unlines (passLines passes text) := by
  induction passes with
  | zero =>
      rw [Function.iterate_one, normalizeBlankLines_of_shown shown]
      simp [passLines]
  | succ passes inductionHypothesis =>
      have readBack := lines_unlines_passLines passes text
      have stillShown := exists_shown_passLines (passes + 1) shown
      rw [← readBack] at stillShown
      rw [Function.iterate_succ_apply', inductionHypothesis,
        normalizeBlankLines_of_shown stillShown, readBack, squeeze_passLines]

/-- Another pass changes nothing exactly if none of the lines has a carriage return left. -/
theorem passLines_succ_eq_iff (text : Text) :
    passLines (passes + 1) text = passLines passes text ↔
      ∀ line ∈ lines text, isBlank line = false →
        ¬ List.replicate (passes + 1) '\r' <:+ line := by
  rw [passLines, passLines, List.map_inj_left]
  simp only [Function.iterate_succ_apply', withoutReturn_eq_self_iff, ne_eq,
    getLast?_iterate_withoutReturn]
  constructor
  · intro noReturns line member shown
    exact noReturns line ((mem_squeeze_iff shown).mpr member)
  · intro noReturns line written
    cases shown : isBlank line with
    | false => exact noReturns line ((mem_squeeze_iff shown).mp written) shown
    | true =>
        rw [eq_nil_of_mem_squeeze written shown, List.suffix_nil]
        exact List.cons_ne_nil _ _

end Passes

/-- The normal form of a normal form is the same text exactly if no non-blank line of the text ends
with a carriage return, apart from the one that belongs to its line end.  In general a text has
settled after some passes exactly if no such line ends with as many carriage returns. -/
theorem normalizeBlankLines_settles_iff (text : Text) :
    (normalizeBlankLines (normalizeBlankLines text) = normalizeBlankLines text ↔
        ∀ line ∈ lines text, isBlank line = false → line.getLast? ≠ some '\r') ∧
      ∀ passes,
        normalizeBlankLines^[passes + 2] text = normalizeBlankLines^[passes + 1] text ↔
          ∀ line ∈ lines text, isBlank line = false →
            ¬ List.replicate (passes + 1) '\r' <:+ line := by
  have settles (passes : Nat) :
      normalizeBlankLines^[passes + 2] text = normalizeBlankLines^[passes + 1] text ↔
        ∀ line ∈ lines text, isBlank line = false →
          ¬ List.replicate (passes + 1) '\r' <:+ line := by
    by_cases blank : ∀ line ∈ lines text, isBlank line = true
    · have settled (more : Nat) : normalizeBlankLines^[more + 1] text = ['\n'] := by
        rw [Function.iterate_succ_apply, normalizeBlankLines_of_blank blank]
        exact Function.iterate_fixed rfl more
      refine iff_of_true ((settled (passes + 1)).trans (settled passes).symm) ?_
      intro line member shown
      rw [blank line member] at shown
      cases shown
    · rw [iterate_normalizeBlankLines (passes + 1) blank, iterate_normalizeBlankLines passes blank,
        ← passLines_succ_eq_iff]
      constructor
      · exact unlines_injective (fun _ => not_mem_of_mem_passLines (passes + 1))
          (fun _ => not_mem_of_mem_passLines passes)
      · exact congrArg unlines
  refine ⟨?_, settles⟩
  have second := settles 0
  simp only [Nat.zero_add, ← getLast?_iterate_withoutReturn 0] at second
  exact second

/-- Of two carriage returns at the end of a line each pass takes one away. -/
theorem normalizeBlankLines_return_unsettled :
    normalizeBlankLines "a\r\r\n".toList = "a\r\n".toList ∧
      normalizeBlankLines (normalizeBlankLines "a\r\r\n".toList) ≠
        normalizeBlankLines "a\r\r\n".toList := by
  decide

/-! ## Lines that are not blank -/

/-- The lines that are not blank. -/
def nonBlankLines (text : Text) : List Text :=
  (lines text).filter (!isBlank ·)

theorem nonBlankLines_append
    {first : Text}
    (ended : EndsLine first)
    (second : Text) :
    nonBlankLines (first ++ second) = nonBlankLines first ++ nonBlankLines second := by
  rw [nonBlankLines, lines_append ended, List.filter_append]
  rfl

theorem nonBlankLines_of_isBlank
    {text : Text}
    (blank : isBlank text = true) :
    nonBlankLines text = [] := by
  rw [nonBlankLines, List.filter_eq_nil_iff]
  intro line member
  have blankLine : isBlank line = true := by
    rw [isBlank, List.all_eq_true]
    intro character inLine
    exact List.all_eq_true.mp blank character (mem_of_mem_lines member inLine)
  simp [blankLine]

/-- A normal form has the non-blank lines of the text, each without a carriage return at its end. -/
theorem nonBlankLines_normalizeBlankLines (text : Text) :
    nonBlankLines (normalizeBlankLines text) = (nonBlankLines text).map withoutReturn := by
  by_cases blank : ∀ line ∈ lines text, isBlank line = true
  · have noneShown : nonBlankLines text = [] := by
      rw [nonBlankLines, List.filter_eq_nil_iff]
      intro line member
      simp [blank line member]
    rw [normalizeBlankLines_of_blank blank, noneShown]
    rfl
  · rw [normalizeBlankLines_of_shown blank, nonBlankLines,
      lines_unlines_eq_map fun _ => not_mem_of_mem_squeeze, List.filter_map, nonBlankLines,
      ← filter_squeeze false false]
    refine congrArg _ (List.filter_congr fun line _ => ?_)
    rw [Function.comp_apply, isBlank_withoutReturn]

theorem map_withoutReturn_eq_self_iff (lines : List Text) :
    lines.map withoutReturn = lines ↔ ∀ line ∈ lines, line.getLast? ≠ some '\r' := by
  induction lines with
  | nil => simp
  | cons line rest inductionHypothesis =>
      rw [List.map_cons, List.cons.injEq, inductionHypothesis, withoutReturn_eq_self_iff,
        List.forall_mem_cons]

/-- Leaving out a text that does not show changes nothing. -/
theorem nonBlankLines_shown
    {text : Text}
    (ended : EndsLine text) :
    nonBlankLines (if isBlank text then [] else terminated text) = nonBlankLines text := by
  by_cases blank : isBlank text = true
  · rw [if_pos blank, nonBlankLines_of_isBlank blank]
    rfl
  · have notEmpty : text ≠ [] := by
      rintro rfl
      exact blank rfl
    rw [if_neg blank, terminated_of_endsLine ended notEmpty]

theorem isBlank_of_subset
    {part whole : Text}
    (inside : part ⊆ whole)
    (blank : isBlank whole = true) :
    isBlank part = true := by
  rw [isBlank, List.all_eq_true] at blank ⊢
  exact fun character member => blank character (inside member)

end Inliner.Text
