import Inliner.Text.Lines
import Mathlib.Data.List.Infix

/-!
# Lines of a text

Lines that are written with a line feed after each are read back as they are, unless one of them
ends with a carriage return, which then counts as part of the line end.
-/

namespace Inliner.Text

/-- A text whose last line, if it has one, is ended by a line feed. -/
def EndsLine (text : Text) : Prop :=
  ∀ last, text.getLast? = some last → last = '\n'

section EndsLine

variable {text first second : Text} {character : Char}

theorem endsLine_nil : EndsLine [] := by
  intro last isLast
  cases isLast

theorem endsLine_concat (text : Text) : EndsLine (text ++ ['\n']) := by
  intro last isLast
  rw [List.getLast?_concat] at isLast
  exact (Option.some.inj isLast).symm

theorem EndsLine.tail (ended : EndsLine (character :: text)) : EndsLine text := by
  intro last isLast
  apply ended
  rw [List.getLast?_cons, isLast]
  rfl

theorem EndsLine.append
    (firstEnded : EndsLine first)
    (secondEnded : EndsLine second) :
    EndsLine (first ++ second) := by
  intro last isLast
  rw [List.getLast?_append] at isLast
  cases found : second.getLast? with
  | none =>
      rw [found, Option.none_or] at isLast
      exact firstEnded last isLast
  | some other =>
      rw [found, Option.some_or] at isLast
      exact secondEnded last (found.trans isLast)

theorem EndsLine.of_suffix
    (ended : EndsLine text)
    (isSuffix : second <:+ text) :
    EndsLine second := by
  obtain ⟨before, rfl⟩ := isSuffix
  intro last isLast
  apply ended
  rw [List.getLast?_append, isLast]
  rfl

end EndsLine

/-! ## Ending the last line -/

theorem terminated_eq (text : Text) :
    terminated text = text ∨ terminated text = text ++ ['\n'] := by
  unfold terminated
  split
  · exact Or.inl rfl
  · exact Or.inr rfl

theorem endsLine_terminated (text : Text) : EndsLine (terminated text) := by
  unfold terminated
  split
  next ended =>
    intro last isLast
    rw [ended] at isLast
    exact (Option.some.inj isLast).symm
  next => exact endsLine_concat text

theorem terminated_ne_nil (text : Text) : terminated text ≠ [] := by
  unfold terminated
  split
  next ended =>
    rintro rfl
    cases ended
  next => exact List.append_ne_nil_of_right_ne_nil _ (List.cons_ne_nil _ _)

theorem terminated_of_endsLine
    {text : Text}
    (ended : EndsLine text)
    (notEmpty : text ≠ []) :
    terminated text = text := by
  have isLast := List.getLast?_eq_some_getLast notEmpty
  have isFeed := ended _ isLast
  rw [terminated, if_pos (isLast.trans (congrArg some isFeed))]

theorem terminated_of_not_endsLine
    {text : Text}
    (notEnded : ¬ EndsLine text) :
    terminated text = text ++ ['\n'] := by
  rw [terminated, if_neg]
  intro isLast
  apply notEnded
  intro last isOther
  rw [isLast] at isOther
  exact (Option.some.inj isOther).symm

theorem terminated_append
    (first : Text)
    {second : Text}
    (notEmpty : second ≠ []) :
    terminated (first ++ second) = first ++ terminated second := by
  have sameLast : (first ++ second).getLast? = second.getLast? := by
    rw [List.getLast?_append, List.getLast?_eq_some_getLast notEmpty, Option.some_or]
  unfold terminated
  rw [sameLast]
  by_cases feed : second.getLast? = some '\n'
  · rw [if_pos feed, if_pos feed]
  · rw [if_neg feed, if_neg feed, List.append_assoc]

theorem terminated_terminated (text : Text) : terminated (terminated text) = terminated text :=
  terminated_of_endsLine (endsLine_terminated text) (terminated_ne_nil text)

/-! ## Lines -/

/-- Lines with a line feed after each. -/
def unlines (lines : List Text) : Text :=
  lines.flatMap (· ++ ['\n'])

theorem unlines_cons (line : Text) (rest : List Text) :
    unlines (line :: rest) = line ++ '\n' :: unlines rest := by
  simp [unlines]

theorem endsLine_unlines (lines : List Text) : EndsLine (unlines lines) := by
  induction lines with
  | nil => exact endsLine_nil
  | cons line rest inductionHypothesis =>
      rw [unlines_cons, List.append_cons]
      exact (endsLine_concat line).append inductionHypothesis

/-- A character that does not start a line end belongs to the first line. -/
theorem lines_cons
    {character : Char}
    {rest : Text}
    (notFeed : character ≠ '\n')
    (notReturn : character = '\r' → rest.head? ≠ some '\n') :
    lines (character :: rest) =
      match lines rest with
      | [] => [[character]]
      | line :: more => (character :: line) :: more := by
  refine lines.eq_4 character rest notFeed ?_
  rintro after isReturn rfl
  exact notReturn isReturn rfl

theorem lines_eq_nil_iff {text : Text} : lines text = [] ↔ text = [] := by
  constructor
  · intro noLines
    fun_cases lines text with
    | case1 => rfl
    | case2 | case3 => simp [lines] at noLines
    | case4 character rest notFeed notReturn noMore =>
        rw [lines, noMore] at noLines
        · cases noLines
        · exact notFeed
        · exact notReturn
    | case5 character rest notFeed notReturn line more someLines =>
        rw [lines, someLines] at noLines
        · cases noLines
        · exact notFeed
        · exact notReturn
  · rintro rfl
    rfl

theorem not_mem_of_mem_lines
    {text line : Text}
    (member : line ∈ lines text) :
    '\n' ∉ line := by
  fun_induction lines text generalizing line with
  | case1 => cases member
  | case2 rest inductionHypothesis =>
      rcases List.mem_cons.mp member with rfl | later
      · exact List.not_mem_nil
      · exact inductionHypothesis later
  | case3 rest inductionHypothesis =>
      rcases List.mem_cons.mp member with rfl | later
      · exact List.not_mem_nil
      · exact inductionHypothesis later
  | case4 character rest notFeed _ _ _ =>
      rw [List.mem_singleton.mp member]
      simpa using Ne.symm notFeed
  | case5 character rest notFeed _ head tail someLines inductionHypothesis =>
      rw [someLines] at inductionHypothesis
      rcases List.mem_cons.mp member with rfl | later
      · have inRest := inductionHypothesis List.mem_cons_self
        simpa [inRest] using Ne.symm notFeed
      · exact inductionHypothesis (List.mem_cons_of_mem _ later)

theorem mem_of_mem_lines
    {text line : Text}
    {character : Char}
    (member : line ∈ lines text)
    (inLine : character ∈ line) :
    character ∈ text := by
  fun_induction lines text generalizing line with
  | case1 => cases member
  | case2 rest inductionHypothesis =>
      rcases List.mem_cons.mp member with rfl | later
      · cases inLine
      · exact List.mem_cons_of_mem _ (inductionHypothesis later inLine)
  | case3 rest inductionHypothesis =>
      rcases List.mem_cons.mp member with rfl | later
      · cases inLine
      · exact List.mem_cons_of_mem _ (List.mem_cons_of_mem _ (inductionHypothesis later inLine))
  | case4 first rest _ _ _ _ =>
      rw [List.mem_singleton.mp member] at inLine
      rw [List.mem_singleton.mp inLine]
      exact List.mem_cons_self
  | case5 first rest _ _ head tail someLines inductionHypothesis =>
      rw [someLines] at inductionHypothesis
      rcases List.mem_cons.mp member with rfl | later
      · rcases List.mem_cons.mp inLine with rfl | inHead
        · exact List.mem_cons_self
        · exact List.mem_cons_of_mem _ (inductionHypothesis List.mem_cons_self inHead)
      · exact List.mem_cons_of_mem _
          (inductionHypothesis (List.mem_cons_of_mem _ later) inLine)

/-- What follows an ended line is read on its own. -/
theorem lines_append
    {first : Text}
    (ended : EndsLine first)
    (second : Text) :
    lines (first ++ second) = lines first ++ lines second := by
  fun_induction lines first with
  | case1 => rfl
  | case2 rest inductionHypothesis =>
      simp only [List.cons_append, lines, inductionHypothesis ended.tail]
  | case3 rest inductionHypothesis =>
      simp only [List.cons_append, lines, inductionHypothesis ended.tail.tail]
  | case4 character rest notFeed _ noLines _ =>
      obtain rfl := lines_eq_nil_iff.mp noLines
      exact absurd (ended character rfl) notFeed
  | case5 character rest notFeed notReturn head tail someLines inductionHypothesis =>
      have notEmpty : rest ≠ [] := by
        rintro rfl
        cases someLines
      rw [List.cons_append, lines_cons, inductionHypothesis ended.tail, someLines]
      · rfl
      · exact notFeed
      · intro isReturn isFeed
        obtain ⟨other, after, rfl⟩ := List.exists_cons_of_ne_nil notEmpty
        have starts : other = '\n' := by simpa using isFeed
        exact notReturn after isReturn (by rw [starts])

/-- A line without a line end of its own is read back. -/
theorem lines_line_append
    {line : Text}
    (noFeed : '\n' ∉ line)
    (noReturn : line.getLast? ≠ some '\r')
    (rest : Text) :
    lines (line ++ '\n' :: rest) = line :: lines rest := by
  induction line with
  | nil => rfl
  | cons character line inductionHypothesis =>
      obtain ⟨notFeed, noFeedLater⟩ := not_or.mp (List.mem_cons.not.mp noFeed)
      have noReturnLater : line.getLast? ≠ some '\r' := by
        intro isLast
        apply noReturn
        rw [List.getLast?_cons, isLast]
        rfl
      rw [List.cons_append, lines_cons (Ne.symm notFeed),
        inductionHypothesis noFeedLater noReturnLater]
      rintro rfl starts
      cases line with
      | nil => exact noReturn rfl
      | cons other line =>
          have isFeed : other = '\n' := by simpa using starts
          exact noFeedLater (isFeed ▸ List.mem_cons_self)

/-- A line with a carriage return before its line feed is read without it. -/
theorem lines_return_append
    {front : Text}
    (noFeed : '\n' ∉ front)
    (rest : Text) :
    lines (front ++ '\r' :: '\n' :: rest) = front :: lines rest := by
  induction front with
  | nil => rfl
  | cons character front inductionHypothesis =>
      obtain ⟨notFeed, noFeedLater⟩ := not_or.mp (List.mem_cons.not.mp noFeed)
      rw [List.cons_append, lines_cons (Ne.symm notFeed), inductionHypothesis noFeedLater]
      intro _ starts
      cases front with
      | nil => cases starts
      | cons other front =>
          have isFeed : other = '\n' := by simpa using starts
          exact noFeedLater (isFeed ▸ List.mem_cons_self)

/-- A line without the carriage return at its end. -/
def withoutReturn (line : Text) : Text :=
  if line.getLast? = some '\r' then line.dropLast else line

theorem withoutReturn_concat (front : Text) : withoutReturn (front ++ ['\r']) = front := by
  rw [withoutReturn, if_pos List.getLast?_concat, List.dropLast_concat]

theorem withoutReturn_of_ne
    {line : Text}
    (noReturn : line.getLast? ≠ some '\r') :
    withoutReturn line = line :=
  if_neg noReturn

/-- Written lines are read back without a carriage return at their ends. -/
theorem lines_unlines_eq_map
    {lines : List Text}
    (noFeeds : ∀ line ∈ lines, '\n' ∉ line) :
    Text.lines (unlines lines) = lines.map withoutReturn := by
  induction lines with
  | nil => rfl
  | cons line rest inductionHypothesis =>
      have noFeed := noFeeds line List.mem_cons_self
      have others := inductionHypothesis fun other member =>
        noFeeds other (List.mem_cons_of_mem _ member)
      rw [unlines_cons, List.map_cons, ← others]
      by_cases isLast : line.getLast? = some '\r'
      · obtain ⟨front, rfl⟩ := List.getLast?_eq_some_iff.mp isLast
        have noFeedBefore : '\n' ∉ front := fun member => noFeed (List.mem_append_left _ member)
        rw [withoutReturn_concat, List.append_assoc, List.singleton_append,
          lines_return_append noFeedBefore]
      · rw [withoutReturn_of_ne isLast, lines_line_append noFeed isLast]

theorem lines_unlines
    {lines : List Text}
    (noFeeds : ∀ line ∈ lines, '\n' ∉ line)
    (noReturns : ∀ line ∈ lines, line.getLast? ≠ some '\r') :
    Text.lines (unlines lines) = lines := by
  have unchanged : ∀ line ∈ lines, withoutReturn line = id line := fun line member =>
    withoutReturn_of_ne (noReturns line member)
  rw [lines_unlines_eq_map noFeeds, List.map_congr_left unchanged, List.map_id]

/-- Lines that are written back take no more room than the text they are read from, and less if a
carriage return stands before a line feed. -/
theorem length_unlines_lines
    {text : Text}
    (ended : EndsLine text) :
    (unlines (lines text)).length ≤ text.length ∧
      (['\r', '\n'] <:+: text → (unlines (lines text)).length < text.length) := by
  fun_induction lines text with
  | case1 =>
      refine ⟨le_refl _, ?_⟩
      intro inside
      cases List.infix_nil.mp inside
  | case2 rest inductionHypothesis =>
      obtain ⟨atMost, less⟩ := inductionHypothesis ended.tail
      rw [unlines_cons]
      simp only [List.nil_append, List.length_cons]
      refine ⟨by omega, ?_⟩
      intro inside
      have later : ['\r', '\n'] <:+: rest := by
        rcases List.infix_cons_iff.mp inside with atStart | later
        · cases (List.cons_prefix_cons.mp atStart).1
        · exact later
      have fewer := less later
      omega
  | case3 rest inductionHypothesis =>
      obtain ⟨atMost, _⟩ := inductionHypothesis ended.tail.tail
      rw [unlines_cons]
      simp only [List.nil_append, List.length_cons]
      exact ⟨by omega, fun _ => by omega⟩
  | case4 character rest notFeed _ noLines _ =>
      obtain rfl := lines_eq_nil_iff.mp noLines
      exact absurd (ended character rfl) notFeed
  | case5 character rest notFeed notReturn head tail someLines inductionHypothesis =>
      obtain ⟨atMost, less⟩ := inductionHypothesis ended.tail
      rw [someLines, unlines_cons] at atMost less
      rw [unlines_cons]
      simp only [List.cons_append, List.length_cons]
      refine ⟨by omega, ?_⟩
      intro inside
      have later : ['\r', '\n'] <:+: rest := by
        rcases List.infix_cons_iff.mp inside with ⟨after, starts⟩ | later
        · obtain ⟨isReturn, rfl⟩ := List.cons.inj starts
          exact absurd rfl (notReturn after isReturn.symm)
        · exact later
      have fewer := less later
      omega

/-- A line of a text without a carriage return before a line feed does not end with one. -/
theorem getLast?_ne_of_mem_unlines
    {lines : List Text}
    (apart : ¬ ['\r', '\n'] <:+: unlines lines)
    {line : Text}
    (member : line ∈ lines) :
    line.getLast? ≠ some '\r' := by
  intro isLast
  obtain ⟨front, rfl⟩ := List.getLast?_eq_some_iff.mp isLast
  obtain ⟨before, after, rfl⟩ := List.append_of_mem member
  apply apart
  refine ⟨unlines before ++ front, unlines after, ?_⟩
  simp [unlines]

theorem prefix_takeWhile_of_head?_lines
    {text line : Text}
    (first : (Text.lines text).head? = some line) :
    line <+: text.takeWhile (· ≠ '\n') := by
  fun_induction Text.lines text generalizing line with
  | case1 => simp at first
  | case2 rest _ =>
      obtain rfl : [] = line := by simpa using first
      exact List.nil_prefix
  | case3 rest _ =>
      obtain rfl : [] = line := by simpa using first
      exact List.nil_prefix
  | case4 character rest notFeed _ noLines _ =>
      obtain rfl : [character] = line := by simpa using first
      have different : character ≠ '\n' := notFeed
      simp [different]
  | case5 character rest notFeed _ head tail someLines inductionHypothesis =>
      obtain rfl : character :: head = line := by simpa using first
      have different : character ≠ '\n' := notFeed
      have inRest : head <+: rest.takeWhile (· ≠ '\n') := by
        apply inductionHypothesis
        rw [someLines]
        rfl
      simpa [List.takeWhile_cons, different] using inRest

end Inliner.Text
