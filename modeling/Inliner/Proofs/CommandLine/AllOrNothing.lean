import Inliner.CommandLine.Run
import Inliner.Proofs.File.Writing
import Inliner.Proofs.Walk.Reads

/-!
# Runs that do all or nothing

Nearly everything that can fail comes before the one file is written: the configuration is loaded,
the files are merged, and the directories are made.  So a run that fails prints nothing and leaves
the content of every file as it is, and a run that succeeds changes at most the file that it is
asked to write.  What can still fail afterwards is to print a report, if one is asked for and some
path in it is not Unicode; then the file is written all the same.
-/

namespace Inliner.CommandLine

/-! ## Reports -/

/-- What a command prints is something, unless a report is asked for and there is none. -/
def Prints (json : Bool) (printed : Except Failure Text) : Prop :=
  (∃ text, printed = .ok text) ∨ (json = true ∧ printed = .error .unprintable)

theorem prints_ite (json : Bool) (report : Option Data.Value) (text : Text) :
    Prints json (if json then printReport report else .ok text) := by
  cases json with
  | false => exact Or.inl ⟨text, rfl⟩
  | true =>
      cases report with
      | none => exact Or.inr ⟨rfl, rfl⟩
      | some value => exact Or.inl ⟨_, rfl⟩

/-! ## The commands -/

/-- Writing a file fails and changes the content of none, or the path takes the text. -/
theorem writeFile_cases (tree : FileTree) (path : Path) (text : Text) :
    (∃ after failure,
      writeFile tree path text = (after, some failure) ∧ tree.SameContents after) ∨
    ∃ after, writeFile tree path text = (after, none) ∧ tree.Takes after path text := by
  have prepared : tree.SameContents (tree.makeDirectories _).1 :=
    tree.sameContents_makeDirectories (path.parent?.getD ⟨[]⟩).components.reverse
  unfold writeFile
  dsimp only
  split
  next made error failed =>
    rw [failed] at prepared
    exact Or.inl ⟨made, _, rfl, prepared⟩
  next made done =>
    rw [done] at prepared
    split
    next after written =>
      exact Or.inr ⟨after, rfl, prepared.takes (FileTree.takes_of_write written)⟩
    next error refused => exact Or.inl ⟨made, _, rfl, prepared⟩

/-- A merge command fails and changes the content of no file, or merges the file and changes at
most the file that the result goes to. -/
theorem runMerge_cases
    (tree : FileTree)
    (config : FileConfig)
    (json : Bool)
    (file : Path)
    (output : Option Path) :
    (∃ failure,
      (runMerge tree config json file output).printed = .error failure ∧
        tree.SameContents (runMerge tree config json file output).tree) ∨
    ∃ remarks outcome,
      Prints json (runMerge tree config json file output).printed ∧
        Inliner.merge config.merge tree (file.anchoredAt tree.current.path) =
          (remarks, .ok outcome) ∧
        match output with
        | none => tree.SameContents (runMerge tree config json file output).tree
        | some path =>
            tree.Takes (runMerge tree config json file output).tree path outcome.text := by
  unfold runMerge
  dsimp only
  split
  next remarks error failed => exact Or.inl ⟨_, rfl, .refl tree⟩
  next remarks outcome merged =>
    cases output with
    | none =>
        right
        exact ⟨remarks, outcome, prints_ite json _ _, merged, .refl tree⟩
    | some path =>
        rcases writeFile_cases tree path outcome.text with
          ⟨after, failure, failed, same⟩ | ⟨after, done, takes⟩
        · left
          simp only [failed]
          exact ⟨failure, rfl, same⟩
        · right
          simp only [done]
          exact ⟨remarks, outcome, prints_ite json _ _, merged, takes⟩

/-- A bundle command fails and changes the content of no file, or merges the file of the problem
and changes the file that the result goes to. -/
theorem runBundle_cases
    (tree : FileTree)
    (config : FileConfig)
    (json : Bool)
    (contest problem : String) :
    (∃ failure,
      (runBundle tree config json contest problem).printed = .error failure ∧
        tree.SameContents (runBundle tree config json contest problem).tree) ∨
    ∃ remarks outcome,
      Prints json (runBundle tree config json contest problem).printed ∧
        Inliner.merge config.merge tree (config.problemSource contest problem) =
          (remarks, .ok outcome) ∧
        tree.Takes (runBundle tree config json contest problem).tree
          (config.bundleOutput problem) outcome.text := by
  unfold runBundle
  dsimp only
  split
  next => exact Or.inl ⟨_, rfl, .refl tree⟩
  next =>
    split
    next remarks error failed => exact Or.inl ⟨_, rfl, .refl tree⟩
    next remarks outcome merged =>
      rcases writeFile_cases tree (config.bundleOutput problem) outcome.text with
        ⟨after, failure, failed, same⟩ | ⟨after, done, takes⟩
      · left
        simp only [failed]
        exact ⟨failure, rfl, same⟩
      · right
        simp only [done]
        exact ⟨remarks, outcome, prints_ite json _ _, merged, takes⟩

theorem tree_runImports (tree : FileTree) (config : FileConfig) (json : Bool) (file : Path) :
    (runImports tree config json file).tree = tree := by
  unfold runImports
  dsimp only
  split <;> rfl

/-! ## The program -/

/-- What a run that succeeds leaves in the files: a merge that is printed and an inspection change
none, and the path to which a merge is written takes the merged text. -/
def Invocation.Leaves (invocation : Invocation) (tree after : FileTree) : Prop :=
  match invocation.command with
  | .merge _ none | .imports _ => tree.SameContents after
  | .merge file (some output) =>
      ∃ config remarks outcome,
        invocation.loadConfig tree = .ok config ∧
          Inliner.merge config.merge tree (file.anchoredAt tree.current.path) =
            (remarks, .ok outcome) ∧
          tree.Takes after output outcome.text
  | .bundle contest problem =>
      ∃ config remarks outcome,
        invocation.loadConfig tree = .ok config ∧
          Inliner.merge config.merge tree (config.problemSource contest problem) =
            (remarks, .ok outcome) ∧
          tree.Takes after (config.bundleOutput problem) outcome.text

/-- A command fails and changes the content of no file, or changes what it is asked to write. -/
theorem Invocation.run_cases (invocation : Invocation) (tree : FileTree) :
    (∃ failure,
      (invocation.run tree).printed = .error failure ∧
        tree.SameContents (invocation.run tree).tree) ∨
    (Prints invocation.json (invocation.run tree).printed ∧
      invocation.Leaves tree (invocation.run tree).tree) := by
  unfold Invocation.run Leaves
  cases loaded : invocation.loadConfig tree with
  | error failure => exact Or.inl ⟨failure, rfl, .refl tree⟩
  | ok config =>
      dsimp only
      unfold Invocation.runWith
      cases invocation.command with
      | merge file output =>
          rcases runMerge_cases tree config invocation.json file output with
            failed | ⟨remarks, outcome, prints, merged, leaves⟩
          · exact Or.inl failed
          · right
            cases output with
            | none => exact ⟨prints, leaves⟩
            | some path => exact ⟨prints, config, remarks, outcome, rfl, merged, leaves⟩
      | bundle contest problem =>
          rcases runBundle_cases tree config invocation.json contest problem with
            failed | ⟨remarks, outcome, prints, merged, leaves⟩
          · exact Or.inl failed
          · exact Or.inr ⟨prints, config, remarks, outcome, rfl, merged, leaves⟩
      | imports file =>
          dsimp only
          rw [tree_runImports]
          cases (runImports tree config invocation.json file).printed with
          | error failure => exact Or.inl ⟨failure, rfl, .refl tree⟩
          | ok printed => exact Or.inr ⟨Or.inl ⟨printed, rfl⟩, .refl tree⟩

/-- A run of a command line that is understood either fails and prints nothing, or succeeds and
changes only what it is asked to write.  A run that fails leaves the content of every file as it is,
unless it cannot print the report that it is asked for: then it leaves what a run that succeeds
does. -/
theorem run_all_or_nothing
    {arguments : List String}
    {invocation : Invocation}
    (understood : Invocation.ofArguments arguments = .ok invocation)
    (tree : FileTree) :
    ((run arguments tree).code ≠ 0 →
      (run arguments tree).printed = [] ∧
        (tree.SameContents (run arguments tree).tree ∨
          (invocation.json = true ∧
            (run arguments tree).failure = some .unprintable ∧
            invocation.Leaves tree (run arguments tree).tree))) ∧
    ((run arguments tree).code = 0 → invocation.Leaves tree (run arguments tree).tree) := by
  have result := invocation.run_cases tree
  unfold run
  rw [understood]
  dsimp only
  cases ran : invocation.run tree with
  | mk after log printed =>
      rw [ran] at result
      cases printed with
      | error failure =>
          refine ⟨fun _ => ⟨rfl, ?_⟩, fun impossible => nomatch impossible⟩
          rcases result with ⟨_, _, same⟩ | ⟨⟨_, impossible⟩ | ⟨json, unprintable⟩, leaves⟩
          · exact Or.inl same
          · cases impossible
          · exact Or.inr ⟨json, congrArg some (Except.error.inj unprintable), leaves⟩
      | ok printed =>
          rcases result with ⟨_, impossible, _⟩ | ⟨_, leaves⟩
          · cases impossible
          · exact ⟨fun failed => absurd rfl failed, fun _ => leaves⟩

/-- Once the files are merged, a run comes down to writing the result and printing a report. -/
theorem run_of_merge
    {arguments : List String}
    {invocation : Invocation}
    {tree : FileTree}
    {config : FileConfig}
    {file output : Path}
    {remarks : List Remark}
    {outcome : Outcome}
    (understood : Invocation.ofArguments arguments = .ok invocation)
    (command : invocation.command = .merge file (some output))
    (loaded : invocation.loadConfig tree = .ok config)
    (merged :
      Inliner.merge config.merge tree (file.anchoredAt tree.current.path) =
        (remarks, .ok outcome)) :
    (run arguments tree).tree = (writeFile tree output outcome.text).1 ∧
      (run arguments tree).code =
        if (writeFile tree output outcome.text).2.isNone &&
            (!invocation.json || (mergeReport outcome).isSome) then 0 else 1 := by
  simp only [run, understood, Invocation.run, loaded, Invocation.runWith, command, runMerge, merged]
  rcases writeFile tree output outcome.text with ⟨after, _ | failure⟩
  · cases invocation.json with
    | false => exact ⟨rfl, rfl⟩
    | true => cases mergeReport outcome <;> exact ⟨rfl, rfl⟩
  · exact ⟨rfl, rfl⟩

/-- A main file without imports, in a directory of some name. -/
def draftTree (directory : String) : FileTree :=
  .ofTexts [directory] [([directory, "main.py"], "x = 1\n\n")]

/-- The arguments for merging it into another file. -/
def draftArguments (output : String) : List String :=
  ["merge", "main.py", "-o", output]

/-- The first run makes a directory and then fails; the second one writes a file into such a
directory. -/
theorem run_all_or_nothing_draftTree :
    ((run (draftArguments "out/x.py/") (draftTree "w")).code = 1 ∧
      (run (draftArguments "out/x.py/") (draftTree "w")).tree ≠ draftTree "w" ∧
      (run (draftArguments "out/x.py/") (draftTree "w")).printed = [] ∧
      (draftTree "w").SameContents (run (draftArguments "out/x.py/") (draftTree "w")).tree) ∧
    (run (draftArguments "out/x.py") (draftTree "w")).code = 0 ∧
      (draftTree "w").Rewrites (run (draftArguments "out/x.py") (draftTree "w")).tree
        (.ofString "out/x.py") "x = 1\n".toList := by
  have facts : ∃ failing succeeding config,
      Invocation.ofArguments (draftArguments "out/x.py/") = .ok failing ∧
      failing.command = .merge (.ofString "main.py") (some (.ofString "out/x.py/")) ∧
      failing.json = false ∧
      failing.loadConfig (draftTree "w") = .ok config ∧
      Invocation.ofArguments (draftArguments "out/x.py") = .ok succeeding ∧
      succeeding.command = .merge (.ofString "main.py") (some (.ofString "out/x.py")) ∧
      succeeding.json = false ∧
      succeeding.loadConfig (draftTree "w") = .ok config ∧
      (mergeWithin 4 config.merge (draftTree "w")
        ((Path.ofString "main.py").anchoredAt (draftTree "w").current.path)).map (·.text) =
          some "x = 1\n".toList := by
    let failing := (Invocation.ofArguments (draftArguments "out/x.py/")).toOption.getD default
    let succeeding := (Invocation.ofArguments (draftArguments "out/x.py")).toOption.getD default
    refine ⟨failing, succeeding, (failing.loadConfig (draftTree "w")).toOption.getD default, ?_⟩
    decide +kernel
  obtain ⟨failing, succeeding, config, failingUnderstood, failingCommand, failingPlain,
    failingLoaded, understood, command, plain, loaded, evaluated⟩ := facts
  obtain ⟨remarks, outcome, merged, text⟩ := merge_of_mergeWithin 4 evaluated
  constructor
  · obtain ⟨after, code⟩ := run_of_merge failingUnderstood failingCommand failingLoaded merged
    have failed :
        (writeFile (draftTree "w") (.ofString "out/x.py/") "x = 1\n".toList).2.isNone = false ∧
          (writeFile (draftTree "w") (.ofString "out/x.py/") "x = 1\n".toList).1 ≠
            draftTree "w" := by
      decide +kernel
    rw [text, failed.1, Bool.false_and, if_neg Bool.false_ne_true] at code
    rw [text] at after
    obtain ⟨nothing, _⟩ := run_all_or_nothing failingUnderstood (draftTree "w")
    obtain ⟨printed, same | ⟨json, _⟩⟩ := nothing (by rw [code]; decide)
    · exact ⟨code, by rw [after]; exact failed.2, printed, same⟩
    · rw [failingPlain] at json
      cases json
  · obtain ⟨after, code⟩ := run_of_merge understood command loaded merged
    have done :
        (writeFile (draftTree "w") (.ofString "out/x.py") "x = 1\n".toList).2.isNone = true ∧
          (writeFile (draftTree "w") (.ofString "out/x.py") "x = 1\n".toList).1.isDevice
            (.ofString "out/x.py") = false := by
      decide +kernel
    rw [text, done.1, plain, Bool.not_false, Bool.true_or, Bool.and_self, if_pos rfl] at code
    refine ⟨code, ?_⟩
    have leaves := (run_all_or_nothing understood (draftTree "w")).2 code
    rw [Invocation.Leaves, command] at leaves
    obtain ⟨otherConfig, otherRemarks, otherOutcome, otherLoaded, otherMerged, takes⟩ := leaves
    obtain rfl := Except.ok.inj (loaded.symm.trans otherLoaded)
    obtain rfl := Except.ok.inj (Prod.mk.inj (merged.symm.trans otherMerged)).2
    rw [text] at takes
    rcases takes with rewrites | ⟨device, _⟩
    · exact rewrites
    · rw [after, text, done.2] at device
      cases device

/-- A run fails, for it cannot print a report with the name of the directory, and yet there is a new
file; another run succeeds and changes no file, for it writes to a device. -/
theorem run_draftTree_fails_after_writing :
    ((run (draftArguments "out.py" ++ ["--json"]) (draftTree "w\x00")).code = 1 ∧
      (draftTree "w\x00").content? ⟨["w\x00".toList, "out.py".toList]⟩ = none ∧
      (run (draftArguments "out.py" ++ ["--json"]) (draftTree "w\x00")).tree.content?
        ⟨["w\x00".toList, "out.py".toList]⟩ = some (.text "x = 1\n".toList)) ∧
    (run (draftArguments "/dev/null") (draftTree "w")).code = 0 ∧
      (run (draftArguments "/dev/null") (draftTree "w")).tree = draftTree "w" := by
  have facts : ∃ failing failingConfig succeeding config,
      Invocation.ofArguments (draftArguments "out.py" ++ ["--json"]) = .ok failing ∧
      failing.command = .merge (.ofString "main.py") (some (.ofString "out.py")) ∧
      failing.loadConfig (draftTree "w\x00") = .ok failingConfig ∧
      failing.json = true ∧
      (mergeWithin 4 failingConfig.merge (draftTree "w\x00")
        ((Path.ofString "main.py").anchoredAt (draftTree "w\x00").current.path)).map
          (fun outcome => (outcome.text, (mergeReport outcome).isSome)) =
            some ("x = 1\n".toList, false) ∧
      Invocation.ofArguments (draftArguments "/dev/null") = .ok succeeding ∧
      succeeding.command = .merge (.ofString "main.py") (some (.ofString "/dev/null")) ∧
      succeeding.loadConfig (draftTree "w") = .ok config ∧
      succeeding.json = false ∧
      (mergeWithin 4 config.merge (draftTree "w")
        ((Path.ofString "main.py").anchoredAt (draftTree "w").current.path)).map (·.text) =
          some "x = 1\n".toList := by
    let failing :=
      (Invocation.ofArguments (draftArguments "out.py" ++ ["--json"])).toOption.getD default
    let succeeding := (Invocation.ofArguments (draftArguments "/dev/null")).toOption.getD default
    refine ⟨failing, (failing.loadConfig (draftTree "w\x00")).toOption.getD default, succeeding,
      (succeeding.loadConfig (draftTree "w")).toOption.getD default, ?_⟩
    decide +kernel
  obtain ⟨failing, failingConfig, succeeding, config, failingUnderstood, failingCommand,
    failingLoaded, json, failingEvaluated, understood, command, loaded, plain, evaluated⟩ := facts
  constructor
  · obtain ⟨outcome, found, same⟩ := Option.map_eq_some_iff.mp failingEvaluated
    obtain ⟨_, merged⟩ := merge_eq_of_mergeWithin 4 found
    obtain ⟨text, noReport⟩ := Prod.mk.inj same
    obtain ⟨after, code⟩ := run_of_merge failingUnderstood failingCommand failingLoaded merged
    rw [json, noReport, Bool.not_true, Bool.or_self, Bool.and_false,
      if_neg Bool.false_ne_true] at code
    rw [after, text]
    exact ⟨code, by decide +kernel⟩
  · obtain ⟨_, outcome, merged, text⟩ := merge_of_mergeWithin 4 evaluated
    obtain ⟨after, code⟩ := run_of_merge understood command loaded merged
    have done :
        (writeFile (draftTree "w") (.ofString "/dev/null") "x = 1\n".toList).2.isNone = true ∧
          (writeFile (draftTree "w") (.ofString "/dev/null") "x = 1\n".toList).1 =
            draftTree "w" := by
      decide +kernel
    rw [text, done.1, plain, Bool.not_false, Bool.true_or, Bool.and_self, if_pos rfl] at code
    rw [after, text]
    exact ⟨code, done.2⟩

end Inliner.CommandLine
