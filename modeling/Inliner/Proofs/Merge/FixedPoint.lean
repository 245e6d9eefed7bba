import Inliner.Proofs.File.Replacement
import Inliner.Proofs.Merge.PassThrough

/-!
# Merging a merged text

A merged text that imports no module file any more is merged once again: its statements are kept,
the first line that names the program to run is set apart, and blank lines are put in normal form.
This gives back the same text exactly if it is settled: no carriage return stands before a line
feed, and no line end follows the end of the first line that names the program to run.
-/

namespace Inliner

open Syntax

/-! ## Settled texts -/

namespace Text

/-- A text that stays as it is when its first line is set apart and blank lines are put in normal
form. -/
def Settled (text : Text) : Prop :=
  ¬ ['\r', '\n'] <:+: text ∧
    ∀ line ∈ shebang? text,
      text[line.length + 1]? ≠ some '\r' ∧ text[line.length + 1]? ≠ some '\n'

/-- The first line of an ended text is followed by its line end. -/
theorem exists_rest_of_head?_lines
    {text line : Text}
    (ended : EndsLine text)
    (first : (lines text).head? = some line) :
    ∃ rest, text = line ++ '\n' :: rest ∨ text = line ++ '\r' :: '\n' :: rest := by
  fun_induction lines text generalizing line with
  | case1 => cases first
  | case2 rest _ =>
      obtain rfl : [] = line := Option.some.inj first
      exact ⟨rest, Or.inl rfl⟩
  | case3 rest _ =>
      obtain rfl : [] = line := Option.some.inj first
      exact ⟨rest, Or.inr rfl⟩
  | case4 character rest notFeed _ noLines _ =>
      obtain rfl := lines_eq_nil_iff.mp noLines
      exact absurd (ended character rfl) notFeed
  | case5 character rest _ _ head tail someLines inductionHypothesis =>
      obtain rfl : character :: head = line := Option.some.inj first
      obtain ⟨after, split | split⟩ := inductionHypothesis ended.tail (by rw [someLines]; rfl)
      · exact ⟨after, Or.inl (congrArg (character :: ·) split)⟩
      · exact ⟨after, Or.inr (congrArg (character :: ·) split)⟩

theorem restacked_eq
    {text line ends rest : Text}
    (named : shebang? text = some line)
    (split : text = line ++ (ends ++ rest))
    (allEnds : ∀ character ∈ ends, isLineEnd character = true) :
    text.restacked = line ++ '\n' :: rest.dropWhile isLineEnd := by
  have restBelow : withoutShebang line text = rest.dropWhile isLineEnd := by
    rw [split, withoutShebang_append, List.dropWhile_append_of_pos allEnds]
  simp [restacked, below, header, futureLine, named, restBelow]

/-- A shorter text has another normal form. -/
theorem normalizeBlankLines_ne_of_shorter
    {text shorter : Text}
    (ended : EndsLine shorter)
    (notEmpty : shorter ≠ [])
    (shorterThan : shorter.length < text.length) :
    normalizeBlankLines shorter ≠ text := by
  intro same
  have atMost := (length_normalizeBlankLines ended notEmpty).1
  rw [same] at atMost
  omega

/-- A normal form is its own normal form exactly if no carriage return stands before a line
feed. -/
theorem normalizeBlankLines_eq_self_iff
    {text original : Text}
    (normal : text = normalizeBlankLines original) :
    normalizeBlankLines text = text ↔ ¬ ['\r', '\n'] <:+: text := by
  subst normal
  constructor
  · intro same inside
    have shorter := (length_normalizeBlankLines (endsLine_normalizeBlankLines original)
      (normalizeBlankLines_ne_nil original)).2 inside
    rw [same] at shorter
    exact Nat.lt_irrefl _ shorter
  · exact normalizeBlankLines_normalizeBlankLines

/-- A text that loses more than one line feed below its first line changes. -/
theorem normalizeBlankLines_restacked_ne
    {text line ends rest : Text}
    (ended : EndsLine text)
    (named : shebang? text = some line)
    (split : text = line ++ (ends ++ rest))
    (allEnds : ∀ character ∈ ends, isLineEnd character = true)
    (shorter : (rest.dropWhile isLineEnd).length + 1 < ends.length + rest.length) :
    normalizeBlankLines text.restacked ≠ text := by
  have restEnded : EndsLine rest := by
    rw [split, ← List.append_assoc] at ended
    exact ended.of_suffix (List.suffix_append _ _)
  rw [restacked_eq named split allEnds]
  apply normalizeBlankLines_ne_of_shorter
  · rw [List.append_cons]
    exact (endsLine_concat line).append (restEnded.of_suffix (List.dropWhile_suffix _))
  · simp
  · rw [split]
    simp only [List.length_append, List.length_cons]
    omega

/-- A text whose first line ends with a line feed is settled if no other line end follows. -/
theorem settled_iff
    {text line rest : Text}
    (named : shebang? text = some line)
    (split : text = line ++ '\n' :: rest) :
    text.Settled ↔
      ¬ ['\r', '\n'] <:+: text ∧
        ∀ character, rest.head? = some character → isLineEnd character = false := by
  have next : text[line.length + 1]? = rest.head? := by
    rw [split, List.getElem?_append_right (by omega), Nat.add_sub_cancel_left,
      List.getElem?_cons_succ, List.head?_eq_getElem?]
  have lineOnly : ∀ other, other ∈ some line ↔ line = other := fun _ => Option.mem_some
  simp only [Settled, named, lineOnly, forall_eq', next]
  refine and_congr_right fun _ => ?_
  cases rest with
  | nil => simp
  | cons character rest => simp [isLineEnd]

/-- The settled case and the other one for a first line that ends with a line feed. -/
theorem normalizeBlankLines_restacked_iff_of_feed
    {text original line rest : Text}
    (normal : text = normalizeBlankLines original)
    (named : shebang? text = some line)
    (split : text = line ++ '\n' :: rest) :
    normalizeBlankLines text.restacked = text ↔ text.Settled := by
  have ended : EndsLine text := normal ▸ endsLine_normalizeBlankLines original
  have splitEnds : text = line ++ (['\n'] ++ rest) := split
  have allEnds : ∀ character ∈ ['\n'], isLineEnd character = true := by simp [isLineEnd]
  rw [settled_iff named split]
  cases rest with
  | nil =>
      have noneFollows :
          ∀ character, ([] : Text).head? = some character → isLineEnd character = false :=
        fun _ impossible => nomatch impossible
      rw [restacked_eq named splitEnds allEnds, List.dropWhile_nil, ← split,
        and_iff_left noneFollows]
      exact normalizeBlankLines_eq_self_iff normal
  | cons character rest =>
      have isNext : (∀ other, (character :: rest).head? = some other → isLineEnd other = false) ↔
          isLineEnd character = false := by
        simp
      rw [isNext]
      by_cases lineEnd : isLineEnd character = true
      · have atMost := (List.dropWhile_suffix isLineEnd : _ <:+ rest).length_le
        have changes := normalizeBlankLines_restacked_ne ended named splitEnds allEnds (by
          rw [List.dropWhile_cons_of_pos lineEnd]
          simp only [List.length_cons, List.length_nil]
          omega)
        refine iff_of_false changes ?_
        rintro ⟨_, other⟩
        rw [lineEnd] at other
        cases other
      · rw [restacked_eq named splitEnds allEnds, List.dropWhile_cons_of_neg lineEnd, ← split,
          and_iff_left (by simpa using lineEnd)]
        exact normalizeBlankLines_eq_self_iff normal

/-- Setting the first line apart and putting blank lines in normal form leaves a normal form as it
is exactly if it is settled. -/
theorem normalizeBlankLines_restacked_iff
    {text original : Text}
    (normal : text = normalizeBlankLines original) :
    normalizeBlankLines text.restacked = text ↔ text.Settled := by
  cases named : shebang? text with
  | none =>
      have same : text.restacked = text := by
        simp [restacked, below, header, futureLine, named]
      have settled : text.Settled ↔ ¬ ['\r', '\n'] <:+: text := by
        simp [Settled, named]
      rw [same, settled]
      exact normalizeBlankLines_eq_self_iff normal
  | some line =>
      have ended : EndsLine text := normal ▸ endsLine_normalizeBlankLines original
      have first := (Option.filter_eq_some_iff.mp named).1
      obtain ⟨rest, split | split⟩ := exists_rest_of_head?_lines ended first
      · exact normalizeBlankLines_restacked_iff_of_feed normal named split
      · have splitEnds : text = line ++ (['\r', '\n'] ++ rest) := split
        have inside : ['\r', '\n'] <:+: text := by
          rw [splitEnds, ← List.append_assoc]
          exact List.infix_append _ _ _
        have allEnds : ∀ character ∈ ['\r', '\n'], isLineEnd character = true := by
          simp [isLineEnd]
        have atMost := (List.dropWhile_suffix isLineEnd : _ <:+ rest).length_le
        have changes := normalizeBlankLines_restacked_ne ended named splitEnds allEnds (by
          simp only [List.length_cons, List.length_nil]
          omega)
        exact iff_of_false changes (fun settled => settled.1 inside)

theorem suffix_below (text : Text) : text.below <:+ text := by
  unfold below
  split
  next line named =>
    obtain ⟨rest, rfl⟩ := prefix_of_shebang? named
    rw [withoutShebang_append]
    exact (List.dropWhile_suffix _).trans (List.suffix_append line rest)
  next => exact List.suffix_rfl

theorem endsLine_restacked
    {text : Text}
    (ended : EndsLine text) :
    EndsLine text.restacked :=
  (endsLine_header text []).append (ended.of_suffix (suffix_below text))

end Text

/-! ## Merging without library imports -/

namespace Setting

variable {setting : Setting} {main : Location} {text : Text} {source : ParsedSource}

/-- A file that has no library imports and asks for no language feature is merged into itself with
its first line set apart and its blank lines in normal form. -/
theorem exists_mergeAt_of_foreign
    (python : Language.ofPath main.path = .python)
    (readable : setting.tree.readAt main = .ok text)
    (parsed : ParsedSource.parse text = .ok source)
    (ended : Text.EndsLine text)
    (noFutures : ∀ statement ∈ source.statements, statement.kind.isFuture = false)
    (foreign : ∀ declaration ∈ source.imports,
      setting.resolver.resolve setting.tree main.path declaration.module = .foreign) :
    ∃ remarks outcome,
      setting.mergeAt main = (remarks, .ok outcome) ∧
        outcome.text = Text.normalizeBlankLines text.restacked := by
  have alone : ∀ declaration ∈ source.imports, setting.leavesAlone main declaration = true := by
    intro declaration member
    rw [leavesAlone, foreign declaration member]
  obtain ⟨remarks, outcome, merged, _, same⟩ :=
    exists_mergeAt_of_leavesAlone python readable parsed (fun _ => noFutures) alone
  refine ⟨remarks, outcome, merged, ?_⟩
  rw [same, ← Text.restacked_eq_respaced]
  exact Text.normalizeBlankLines_terminated (Text.endsLine_restacked ended)

theorem python_of_load
    {id : Nat}
    {isMain : Bool}
    {remarks : List Remark}
    {module : Module}
    (loaded : setting.load id main isMain = (remarks, .ok module)) :
    Language.ofPath main.path = .python := by
  by_contra other
  rw [load, if_pos other] at loaded
  cases (Prod.mk.inj loaded).2

/-- What a merge that succeeds gives: a text in normal form, or the text of a main file that could
not be analysed. -/
theorem text_of_mergeAt
    {remarks : List Remark}
    {outcome : Outcome}
    (merged : setting.mergeAt main = (remarks, .ok outcome)) :
    Language.ofPath main.path = .python ∧
      (∃ text, setting.tree.readAt main = .ok text) ∧
      ((∃ original, outcome.text = Text.normalizeBlankLines original) ∨
        ∃ error, ParsedSource.parse outcome.text = .error error) := by
  unfold mergeAt at merged
  split at merged
  next => cases (Prod.mk.inj merged).2
  next loadRemarks module loaded =>
    refine ⟨python_of_load loaded, ⟨_, text_of_load loaded⟩, ?_⟩
    split at merged
    next verbatim =>
      obtain rfl := Except.ok.inj (Prod.mk.inj merged).2
      right
      cases loads_of_load loaded with
      | analysed => cases verbatim
      | verbatim _ broken _ => exact ⟨_, broken⟩
    next =>
      split at merged
      next => cases (Prod.mk.inj merged).2
      next walk ran =>
        obtain rfl := Except.ok.inj (Prod.mk.inj merged).2
        exact Or.inl ⟨_, rfl⟩

end Setting

/-! ## Merging twice -/

/-- A tree in which the file that a path leads to holds this text. -/
def FileTree.replaced (tree : FileTree) (file : Path) (text : Text) : FileTree :=
  tree.replacedAt (tree.normalize file) text

/-- A file that can be analysed, asks for no language feature and has foreign imports only. -/
def Setting.SelfContained (setting : Setting) (main : Location) : Prop :=
  ∃ source ∈ setting.tree.parsedAt? main,
    (∀ statement ∈ source.statements, statement.kind.isFuture = false) ∧
      ∀ declaration ∈ source.imports,
        setting.resolver.resolve setting.tree main.path declaration.module = .foreign

instance (setting : Setting) (main : Location) : Decidable (setting.SelfContained main) :=
  inferInstanceAs (Decidable (∃ source ∈ setting.tree.parsedAt? main, _))

instance (text : Text) : Decidable text.Settled :=
  inferInstanceAs (Decidable (_ ∧ ∀ line ∈ shebang? text, _))

/-- If a merged text is self-contained in the place of its main file, then it can be merged again.
The result is the same text exactly if the text is settled. -/
theorem merge_again_eq_iff_settled
    {config : MergeConfig}
    {tree : FileTree}
    {file : Path}
    {remarks : List Remark}
    {outcome : Outcome}
    (merged : merge config tree file = (remarks, .ok outcome))
    (selfContained :
      Setting.SelfContained ⟨config, tree.replaced file outcome.text⟩
        ((tree.replaced file outcome.text).normalize file)) :
    ∃ againRemarks again,
      merge config (tree.replaced file outcome.text) file = (againRemarks, .ok again) ∧
        (again.text = outcome.text ↔ outcome.text.Settled) := by
  unfold merge at merged
  split at merged
  next => cases (Prod.mk.inj merged).2
  next valid =>
    obtain ⟨python, ⟨_, mainReadable⟩, origin⟩ := Setting.text_of_mergeAt merged
    have samePaths : ∀ path,
        (tree.replaced file outcome.text).normalize path = tree.normalize path :=
      FileTree.normalize_replacedAt mainReadable outcome.text
    have readable :
        (tree.replaced file outcome.text).readAt (tree.normalize file) = .ok outcome.text :=
      FileTree.readAt_replacedAt mainReadable outcome.text
    rw [samePaths] at selfContained
    obtain ⟨source, found, noFutures, foreign⟩ := selfContained
    have parsed := FileTree.parse_of_parsedAt? readable found
    obtain ⟨original, normal⟩ | ⟨error, broken⟩ := origin
    · have ended : Text.EndsLine outcome.text :=
        normal ▸ Text.endsLine_normalizeBlankLines original
      obtain ⟨againRemarks, again, mergedAgain, text⟩ :=
        Setting.exists_mergeAt_of_foreign python readable parsed ended noFutures foreign
      refine ⟨againRemarks, again, ?_, ?_⟩
      · rw [merge, config.validate_congr samePaths, valid]
        simp only [samePaths]
        exact mergedAgain
      · rw [text]
        exact Text.normalizeBlankLines_restacked_iff normal
    · rw [parsed] at broken
      cases broken

/-- A main file with a first line that names the program to run, a foreign import and a library
module, the text of which is given. -/
def namedTree (library : String) : FileTree :=
  let files : List (List String × String) :=
    [(["w", "main.py"], "#!/bin/x\nimport os\nfrom lib.a import f\nf()\n"),
      (["w", "contest", "lib", "a.py"], library)]
  files.foldl
    (fun tree file => tree.put ⟨file.1.map (·.toList)⟩ (.text file.2.toList))
    (.empty ⟨["w".toList]⟩)

theorem merge_again_eq_namedTree :
    ∃ remarks outcome againRemarks again,
      merge {} (namedTree "def f(): pass\n") (.ofString "main.py") = (remarks, .ok outcome) ∧
        Setting.SelfContained
          ⟨{}, (namedTree "def f(): pass\n").replaced (.ofString "main.py") outcome.text⟩
          (((namedTree "def f(): pass\n").replaced (.ofString "main.py") outcome.text).normalize
            (.ofString "main.py")) ∧
        merge {} ((namedTree "def f(): pass\n").replaced (.ofString "main.py") outcome.text)
          (.ofString "main.py") = (againRemarks, .ok again) ∧
        again.text = outcome.text := by
  have first :
      (mergeWithin 12 {} (namedTree "def f(): pass\n") (.ofString "main.py")).map (·.text) =
        some "#!/bin/x\ndef f(): pass\n\nimport os\nf()\n".toList := by
    decide +kernel
  obtain ⟨remarks, outcome, merged, text⟩ := merge_of_mergeWithin 12 first
  have selfContained :
      Setting.SelfContained
        ⟨{}, (namedTree "def f(): pass\n").replaced (.ofString "main.py") outcome.text⟩
        (((namedTree "def f(): pass\n").replaced (.ofString "main.py") outcome.text).normalize
          (.ofString "main.py")) := by
    rw [text]
    decide +kernel
  have settled : outcome.text.Settled := by
    rw [text]
    decide +kernel
  obtain ⟨againRemarks, again, mergedAgain, sameIff⟩ :=
    merge_again_eq_iff_settled merged selfContained
  exact ⟨remarks, outcome, againRemarks, again, merged, selfContained, mergedAgain,
    sameIff.mpr settled⟩

theorem merge_again_ne_namedTree :
    ∃ remarks outcome againRemarks again,
      merge {} (namedTree "\ndef f(): pass\n") (.ofString "main.py") = (remarks, .ok outcome) ∧
        Setting.SelfContained
          ⟨{}, (namedTree "\ndef f(): pass\n").replaced (.ofString "main.py") outcome.text⟩
          (((namedTree "\ndef f(): pass\n").replaced (.ofString "main.py") outcome.text).normalize
            (.ofString "main.py")) ∧
        merge {} ((namedTree "\ndef f(): pass\n").replaced (.ofString "main.py") outcome.text)
          (.ofString "main.py") = (againRemarks, .ok again) ∧
        again.text ≠ outcome.text := by
  have first :
      (mergeWithin 12 {} (namedTree "\ndef f(): pass\n") (.ofString "main.py")).map (·.text) =
        some "#!/bin/x\n\ndef f(): pass\n\nimport os\nf()\n".toList := by
    decide +kernel
  obtain ⟨remarks, outcome, merged, text⟩ := merge_of_mergeWithin 12 first
  have second :
      (mergeWithin 12 {} ((namedTree "\ndef f(): pass\n").replaced (.ofString "main.py")
        outcome.text) (.ofString "main.py")).map (·.text) =
        some "#!/bin/x\ndef f(): pass\n\nimport os\nf()\n".toList := by
    rw [text]
    decide +kernel
  obtain ⟨againRemarks, again, mergedAgain, againText⟩ := merge_of_mergeWithin 12 second
  refine ⟨remarks, outcome, againRemarks, again, merged, ?_, mergedAgain, ?_⟩
  · rw [text]
    decide +kernel
  · rw [text, againText]
    decide +kernel

end Inliner
