import Inliner.Proofs.Merge.Pieces
import Inliner.Proofs.Text.Spacing

/-!
# The lines of a merged text

What is written for requests stands in a merged text in its normal form.  The normal form keeps the
lines that are not blank, each without a carriage return at its end.  So these are the lines of the
header and below them those of the chunks, in the order in which the chunks were written.
-/

namespace Inliner

/-! ## The header -/

theorem Text.endsLine_futureLine (features : List String) : EndsLine (futureLine features) := by
  unfold futureLine
  split
  · exact endsLine_nil
  · have ended : EndsLine ['\n', '\n'] := endsLine_concat ['\n']
    intro last isLast
    rw [List.getLast?_append_of_ne_nil _ (by decide)] at isLast
    exact ended last isLast

theorem Text.endsLine_header (text : Text) (features : List String) :
    EndsLine (header text features) := by
  refine EndsLine.append ?_ (endsLine_futureLine features)
  cases shebang? text with
  | none => exact endsLine_nil
  | some line => exact endsLine_concat line

/-! ## The chunks -/

theorem nonBlankLines_joinChunks (chunks : List Chunk) (last : Option Nat) :
    Text.nonBlankLines (joinChunks last chunks) =
      chunks.flatMap fun chunk => Text.nonBlankLines (Text.terminated chunk.text) := by
  induction chunks generalizing last with
  | nil => rfl
  | cons chunk rest inductionHypothesis =>
      have gapEnded : Text.EndsLine
          (if last.any (· ≠ chunk.module) then ['\n', '\n'] else []) := by
        split
        · exact Text.endsLine_concat ['\n']
        · exact Text.endsLine_nil
      have gapBlank : Text.nonBlankLines
          (if last.any (· ≠ chunk.module) then ['\n', '\n'] else []) = [] := by
        split <;> rfl
      rw [joinChunks,
        Text.nonBlankLines_append (gapEnded.append (Text.endsLine_terminated chunk.text)),
        Text.nonBlankLines_append gapEnded, gapBlank, List.nil_append, inductionHypothesis,
        List.flatMap_cons]

namespace Output

variable {output whole : Output}

/-- The lines that are not blank of the normal form of an output below a header. -/
def linesBelow (output : Output) (header : Text) : List Text :=
  (Text.nonBlankLines header ++
    output.chunks.flatMap fun chunk => Text.nonBlankLines (Text.terminated chunk.text)).map
      Text.withoutReturn

/-- The chunks that cannot be seen have no lines that are not blank. -/
theorem nonBlankLines_text (output : Output) :
    Text.nonBlankLines output.text =
      output.chunks.flatMap fun chunk => Text.nonBlankLines (Text.terminated chunk.text) := by
  rw [text, nonBlankLines_joinChunks, visible]
  induction output.chunks with
  | nil => rfl
  | cons chunk rest inductionHypothesis =>
      by_cases blank : chunk.isBlank = true
      · have noLines : Text.nonBlankLines (Text.terminated chunk.text) = [] := by
          rw [Chunk.isBlank, ← Text.isBlank_terminated] at blank
          exact Text.nonBlankLines_of_isBlank blank
        rw [List.filter_cons_of_neg (by simp [blank]), inductionHypothesis, List.flatMap_cons,
          noLines, List.nil_append]
      · rw [List.filter_cons_of_pos (by simp [blank]), List.flatMap_cons, inductionHypothesis,
          List.flatMap_cons]

theorem linesBelow_isPrefix
    (chunks : output.chunks <+: whole.chunks)
    (header : Text) :
    output.linesBelow header <+: whole.linesBelow header := by
  obtain ⟨more, split⟩ := chunks
  rw [linesBelow, linesBelow, ← split, List.flatMap_append, ← List.append_assoc]
  exact (List.prefix_append _ _).map _

end Output

/-! ## The merged text -/

namespace Setting

/-- The lines of a merged text that are not blank are those of the header and of what has been
written. -/
theorem nonBlankLines_outcome
    (setting : Setting)
    (main : Location)
    (mainText : Text)
    (walk : Walk) :
    Text.nonBlankLines (setting.outcome main mainText walk).text =
      (setting.output walk.registry walk.events).linesBelow
        (header mainText walk.registry.futures) := by
  have merged : (setting.outcome main mainText walk).text =
      Text.normalizeBlankLines (header mainText walk.registry.futures ++
        (setting.output walk.registry walk.events).text) := rfl
  rw [merged, Text.nonBlankLines_normalizeBlankLines,
    Text.nonBlankLines_append (Text.endsLine_header mainText _), Output.nonBlankLines_text,
    Output.linesBelow]

/-- What has been written after the earlier ones of the events of a walk gives the first lines of
the merged text. -/
theorem linesBelow_isPrefix_outcome
    {setting : Setting}
    {walk : Walk}
    {earlier later : List Event}
    (split : walk.events = earlier ++ later)
    (main : Location)
    (mainText : Text) :
    (setting.output walk.registry earlier).linesBelow (header mainText walk.registry.futures) <+:
      Text.nonBlankLines (setting.outcome main mainText walk).text := by
  rw [nonBlankLines_outcome, split]
  exact Output.linesBelow_isPrefix
    (chunks_output_isPrefix_append setting walk.registry earlier later) _

end Setting

end Inliner
