import Inliner.Proofs.Text.Lines
import Inliner.Text.BlankLines

/-!
# Texts in blank-line normal form

The normal form of a text is made of lines with one line feed each.  The normal form of a normal
form is the same text or a shorter one, and the same if no carriage return stands before a line
feed.
-/

namespace Inliner.Text

/-! ## Lines in normal form -/

/-- The lines that are written for some lines, as `writeLines` does. -/
def squeeze (started gap : Bool) : List Text → List Text
  | [] => []
  | line :: rest =>
      if isBlank line then
        squeeze started started rest
      else
        (if gap then [[]] else []) ++ line :: squeeze true false rest

theorem writeLines_eq_unlines
    (started gap : Bool)
    (lines : List Text) :
    writeLines started gap lines = unlines (squeeze started gap lines) := by
  induction lines generalizing started gap with
  | nil => rfl
  | cons line rest inductionHypothesis =>
      by_cases blank : isBlank line = true
      · simp only [writeLines, squeeze, blank, ↓reduceIte, inductionHypothesis]
      · simp only [writeLines, squeeze, blank, Bool.false_eq_true, ↓reduceIte,
          inductionHypothesis]
        cases gap <;> simp [unlines]

/-- Lines that have been written are written again as they are. -/
theorem squeeze_squeeze
    {started gap : Bool}
    (gapAfterStart : gap = true → started = true)
    (lines : List Text) :
    squeeze started false (squeeze started gap lines) = squeeze started gap lines := by
  induction lines generalizing started gap with
  | nil => rfl
  | cons line rest inductionHypothesis =>
      by_cases blank : isBlank line = true
      · simp only [squeeze, blank, ↓reduceIte]
        exact inductionHypothesis id
      · have later : squeeze true false (squeeze true false rest) = squeeze true false rest :=
          inductionHypothesis (fun impossible => nomatch impossible)
        have blankNil : isBlank [] = true := rfl
        cases gap with
        | false =>
            simp only [squeeze, blank, Bool.false_eq_true, ↓reduceIte, List.nil_append, later]
        | true =>
            obtain rfl := gapAfterStart rfl
            simp only [squeeze, blank, blankNil, Bool.false_eq_true, ↓reduceIte,
              List.cons_append, List.nil_append, later]

theorem mem_of_mem_squeeze
    {started gap : Bool}
    {lines : List Text}
    {line : Text}
    (member : line ∈ squeeze started gap lines) :
    line = [] ∨ line ∈ lines := by
  induction lines generalizing started gap with
  | nil => cases member
  | cons first rest inductionHypothesis =>
      rw [squeeze] at member
      split at member
      · rcases inductionHypothesis member with empty | later
        · exact Or.inl empty
        · exact Or.inr (List.mem_cons_of_mem _ later)
      · rcases List.mem_append.mp member with inGap | here
        · cases gap with
          | false => cases inGap
          | true => exact Or.inl (List.mem_singleton.mp inGap)
        · rcases List.mem_cons.mp here with rfl | written
          · exact Or.inr List.mem_cons_self
          · rcases inductionHypothesis written with empty | later
            · exact Or.inl empty
            · exact Or.inr (List.mem_cons_of_mem _ later)

theorem not_mem_of_mem_squeeze
    {started gap : Bool}
    {text line : Text}
    (member : line ∈ squeeze started gap (lines text)) :
    '\n' ∉ line := by
  rcases mem_of_mem_squeeze member with rfl | isLine
  · exact List.not_mem_nil
  · exact not_mem_of_mem_lines isLine

theorem writeLines_of_blank
    (started gap : Bool)
    {lines : List Text}
    (blank : ∀ line ∈ lines, isBlank line = true) :
    writeLines started gap lines = [] := by
  induction lines generalizing gap with
  | nil => rfl
  | cons line rest inductionHypothesis =>
      rw [writeLines, if_pos (blank line List.mem_cons_self)]
      exact inductionHypothesis started
        (fun other member => blank other (List.mem_cons_of_mem _ member))

/-- Blank lines at the end are left out. -/
theorem writeLines_append_blank
    (started gap : Bool)
    (lines : List Text)
    {more : List Text}
    (blank : ∀ line ∈ more, isBlank line = true) :
    writeLines started gap (lines ++ more) = writeLines started gap lines := by
  induction lines generalizing started gap with
  | nil => exact writeLines_of_blank started gap blank
  | cons line rest inductionHypothesis =>
      simp only [List.cons_append, writeLines, inductionHypothesis]

theorem length_writeLines_le
    (started gap : Bool)
    (lines : List Text) :
    (writeLines started gap lines).length ≤ (if gap then 1 else 0) + (unlines lines).length := by
  induction lines generalizing started gap with
  | nil => exact Nat.zero_le _
  | cons line rest inductionHypothesis =>
      rw [unlines_cons, writeLines, List.length_append, List.length_cons]
      split
      · have rest := inductionHypothesis started started
        cases started <;> simp at rest ⊢ <;> omega
      · have rest := inductionHypothesis true false
        cases gap <;> simp at rest ⊢ <;> omega

/-! ## The normal form of a text -/

/-- A normal form is one line feed, or the lines written. -/
theorem normalizeBlankLines_eq (text : Text) :
    normalizeBlankLines text = ['\n'] ∧ writeLines false false (lines text) = [] ∨
      normalizeBlankLines text = unlines (squeeze false false (lines text)) ∧
        unlines (squeeze false false (lines text)) ≠ [] := by
  unfold normalizeBlankLines
  rw [writeLines_eq_unlines]
  split
  next nothing => exact Or.inl ⟨rfl, nothing⟩
  next something => exact Or.inr ⟨rfl, something⟩

theorem normalizeBlankLines_ne_nil (text : Text) : normalizeBlankLines text ≠ [] := by
  rcases normalizeBlankLines_eq text with ⟨same, _⟩ | ⟨same, something⟩
  · rw [same]
    exact List.cons_ne_nil _ _
  · rw [same]
    exact something

theorem endsLine_normalizeBlankLines (text : Text) : EndsLine (normalizeBlankLines text) := by
  rcases normalizeBlankLines_eq text with ⟨same, _⟩ | ⟨same, _⟩
  · rw [same]
    exact endsLine_unlines [[]]
  · rw [same]
    exact endsLine_unlines _

/-- White space after the last line makes no difference. -/
theorem normalizeBlankLines_append_blank
    {text tail : Text}
    (ended : EndsLine text)
    (blank : isBlank tail = true) :
    normalizeBlankLines (text ++ tail) = normalizeBlankLines text := by
  have blankLines : ∀ line ∈ lines tail, isBlank line = true := by
    intro line member
    rw [isBlank, List.all_eq_true] at blank ⊢
    intro character inLine
    exact blank character (mem_of_mem_lines member inLine)
  unfold normalizeBlankLines
  rw [lines_append ended, writeLines_append_blank false false _ blankLines]

theorem normalizeBlankLines_terminated
    {text : Text}
    (ended : EndsLine text) :
    normalizeBlankLines (terminated text) = normalizeBlankLines text := by
  rcases terminated_eq text with same | more
  · rw [same]
  · rw [more]
    exact normalizeBlankLines_append_blank ended (by decide)

theorem isBlank_append (first second : Text) :
    isBlank (first ++ second) = (isBlank first && isBlank second) :=
  List.all_append

theorem isBlank_terminated (text : Text) : isBlank (terminated text) = isBlank text := by
  have blankFeed : isBlank ['\n'] = true := by decide
  rcases terminated_eq text with same | more
  · rw [same]
  · rw [more, isBlank_append, blankFeed, Bool.and_true]

/-- A normal form takes no more room than its text, and less if a carriage return stands before a
line feed. -/
theorem length_normalizeBlankLines
    {text : Text}
    (ended : EndsLine text)
    (notEmpty : text ≠ []) :
    (normalizeBlankLines text).length ≤ text.length ∧
      (['\r', '\n'] <:+: text → (normalizeBlankLines text).length < text.length) := by
  rcases normalizeBlankLines_eq text with ⟨same, _⟩ | ⟨same, _⟩
  · rw [same, List.length_singleton]
    refine ⟨List.length_pos_of_ne_nil notEmpty, ?_⟩
    intro inside
    exact inside.length_le
  · have written := length_writeLines_le false false (lines text)
    rw [writeLines_eq_unlines, ← same] at written
    simp only [Bool.false_eq_true, ↓reduceIte, Nat.zero_add] at written
    obtain ⟨atMost, less⟩ := length_unlines_lines ended
    refine ⟨written.trans atMost, ?_⟩
    intro inside
    exact written.trans_lt (less inside)

/-- A normal form without a carriage return before a line feed is its own normal form. -/
theorem normalizeBlankLines_normalizeBlankLines
    {text : Text}
    (apart : ¬ ['\r', '\n'] <:+: normalizeBlankLines text) :
    normalizeBlankLines (normalizeBlankLines text) = normalizeBlankLines text := by
  rcases normalizeBlankLines_eq text with ⟨same, _⟩ | ⟨same, something⟩
  · rw [same]
    rfl
  · rw [same] at apart ⊢
    have noFeeds : ∀ line ∈ squeeze false false (lines text), '\n' ∉ line := fun _ =>
      not_mem_of_mem_squeeze
    have readBack : lines (unlines (squeeze false false (lines text))) =
        squeeze false false (lines text) :=
      lines_unlines noFeeds (fun _ => getLast?_ne_of_mem_unlines apart)
    have writtenAgain : squeeze false false (squeeze false false (lines text)) =
        squeeze false false (lines text) :=
      squeeze_squeeze id (lines text)
    rcases normalizeBlankLines_eq (unlines (squeeze false false (lines text))) with
      ⟨_, nothing⟩ | ⟨again, _⟩
    · rw [readBack, writeLines_eq_unlines, writtenAgain] at nothing
      exact absurd nothing something
    · rw [again, readBack, writtenAgain]

end Inliner.Text
