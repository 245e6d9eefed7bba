import Inliner.Proofs.Walk.Reads

/-!
# Files that may have faults

A file that may have faults is taken as it is where another one would make the merge fail, and
every fault that is passed over in this way is noted.  So more patterns for such files change
nothing about a merge that succeeds, and the notes of a merge list the faults of the files it reads:
file by file in the order in which they are loaded, and in each file in the order of its imports.
-/

namespace Inliner

/-! ## More files may have faults -/

theorem MergeConfig.describes_mono
    {patterns more : List String}
    {text : Text}
    (extended : patterns ⊆ more)
    (described : describes patterns text = true) :
    describes more text = true := by
  obtain ⟨pattern, member, isMatch⟩ := List.any_eq_true.mp described
  exact List.any_eq_true.mpr ⟨pattern, extended member, isMatch⟩

namespace Setting

/-- A setting with other patterns for the files that may have faults. -/
def withFixtures (setting : Setting) (patterns : List String) : Setting :=
  { setting with config := { setting.config with lenientFixtures := patterns } }

section Fixtures

variable {setting : Setting} {patterns : List String} {location : Location}

theorem isLenient_withFixtures
    (extended : setting.config.lenientFixtures ⊆ patterns)
    (lenient : setting.isLenient location = true) :
    (setting.withFixtures patterns).isLenient location = true := by
  rcases Bool.or_eq_true_iff.mp lenient with byPath | byName
  · exact Bool.or_eq_true_iff.mpr (.inl (MergeConfig.describes_mono extended byPath))
  · obtain ⟨name, isLast, described⟩ := (Option.any_eq_true _ _).mp byName
    have again : MergeConfig.describes patterns name = true :=
      MergeConfig.describes_mono extended described
    exact Bool.or_eq_true_iff.mpr (.inr ((Option.any_eq_true _ _).mpr ⟨name, isLast, again⟩))

/-- Where no import of a file leads nowhere, it does not count whether the file may have faults. -/
theorem dependencies_of_settled
    {imports : List ImportDeclaration}
    (lenient strict : Bool)
    (settled : ∀ declaration ∈ imports, ∀ reason,
      setting.resolver.resolve setting.tree location.path declaration.module ≠
        .missing reason) :
    setting.dependencies location lenient imports =
      setting.dependencies location strict imports := by
  apply dependencies_eq_of_forall
  intro declaration member
  unfold dependency
  cases leads : setting.resolver.resolve setting.tree location.path declaration.module with
  | library target => rfl
  | foreign => rfl
  | missing reason => exact absurd leads (settled declaration member reason)

theorem plan_withFixtures
    (id : Nat)
    (isMain lenient : Bool)
    (source : ParsedSource) :
    (setting.withFixtures patterns).plan id location isMain lenient source =
      setting.plan id location isMain lenient source := by
  have sameImports :
      (setting.withFixtures patterns).dependencies location lenient source.imports =
        setting.dependencies location lenient source.imports :=
    dependencies_eq_of_forall fun _ _ => rfl
  rw [plan, plan, sameImports]
  rfl

/-- A file without a fault is loaded alike if more files may have faults: it may have faults before
and after, or it has none. -/
theorem loadsAlike_withFixtures
    (extended : setting.config.lenientFixtures ⊆ patterns)
    (faultless : setting.fault? location = none) :
    setting.LoadsAlike (setting.withFixtures patterns) location := by
  intro id isMain
  have sameTree : (setting.withFixtures patterns).tree = setting.tree := rfl
  have sameDisplay : (setting.withFixtures patterns).display = setting.display := rfl
  -- Either the file has nothing to pass over, so that the patterns are of no account, or one of
  -- them describes it already.
  obtain ⟨_, text, readable, ⟨source, analysed, settled⟩ | lenient⟩ :=
    fault?_eq_none_iff.mp faultless
  · have samePlan :
        setting.plan id location isMain ((setting.withFixtures patterns).isLenient location)
            source =
          setting.plan id location isMain (setting.isLenient location) source := by
      rw [plan, plan, dependencies_of_settled _ _ settled]
    simp only [load, sameTree, readable, analysed, plan_withFixtures, samePlan]
  · simp only [load, sameTree, sameDisplay, plan_withFixtures, lenient,
      isLenient_withFixtures extended lenient]

end Fixtures

/-- No file that can be reached in a merge that succeeds has a fault. -/
theorem fault?_eq_none_of_mergeAt
    {setting : Setting}
    {main location : Location}
    {remarks : List Remark}
    {outcome : Outcome}
    (mainPlain : main.IsPlain)
    (merged : setting.mergeAt main = (remarks, .ok outcome))
    (reachable : setting.Reachable main location) :
    setting.fault? location = none := by
  rcases mergeAt_eq mainPlain fun location target => isPlain_of_mem_targets with
    ⟨_, _, _, faultless⟩ | ⟨_, _, failed, _⟩
  · exact List.findSome?_eq_none_iff.mp faultless location
      (mem_traversal_iff_reachable.mpr reachable)
  · rw [merged] at failed
    cases (Prod.mk.inj failed).2

end Setting

/-- More patterns for the files that may have faults do not change a merge that succeeds. -/
theorem merge_eq_of_more_fixtures
    {config : MergeConfig}
    {tree : FileTree}
    {file : Path}
    {patterns : List String}
    {remarks : List Remark}
    {outcome : Outcome}
    (extended : config.lenientFixtures ⊆ patterns)
    (valid : MergeConfig.validate { config with lenientFixtures := patterns } tree = .ok ())
    (merged : merge config tree file = (remarks, .ok outcome)) :
    merge { config with lenientFixtures := patterns } tree file = (remarks, .ok outcome) := by
  obtain ⟨_, mergedAt⟩ := mergeAt_of_merge merged
  have same :
      (Setting.withFixtures ⟨config, tree⟩ patterns).mergeAt (tree.normalize file) =
        Setting.mergeAt ⟨config, tree⟩ (tree.normalize file) := by
    refine Setting.mergeAt_congr ?_ ?_ ?_
    · rfl
    · rfl
    intro location reachable
    apply Setting.loadsAlike_withFixtures extended
    exact Setting.fault?_eq_none_of_mergeAt (tree.isPlain_normalize file) mergedAt reachable
  rw [merge, valid, ← mergedAt]
  exact same

/-- A main file that imports a module that breaks the grammar, one that does not exist, and a module
without faults. -/
def faultyTree : FileTree :=
  .ofTexts ["w"]
    [(["w", "main.py"], "import lib.a\nimport lib.gone\nimport lib.b\n"),
      (["w", "contest", "lib", "a.py"], "x = (\n"),
      (["w", "contest", "lib", "b.py"], "y = 1\n")]

/-- A configuration in which the files with the faults may have them. -/
def tolerantConfig : MergeConfig :=
  { lenientFixtures := ["main.py", "a.py"] }

theorem merge_eq_of_more_fixtures_faultyTree :
    ∃ remarks outcome,
      merge tolerantConfig faultyTree (.ofString "main.py") = (remarks, .ok outcome) ∧
        merge { tolerantConfig with lenientFixtures := ["main.py", "a.py", "b.py"] } faultyTree
            (.ofString "main.py") =
          (remarks, .ok outcome) ∧
        outcome.text = "x = (\n\ny = 1\n\nimport lib.gone\n".toList := by
  have evaluated :
      (mergeWithin 12 tolerantConfig faultyTree (.ofString "main.py")).map (·.text) =
        some "x = (\n\ny = 1\n\nimport lib.gone\n".toList := by
    decide +kernel
  obtain ⟨remarks, outcome, merged, text⟩ := merge_of_mergeWithin 12 evaluated
  have valid :
      MergeConfig.validate
          { tolerantConfig with lenientFixtures := ["main.py", "a.py", "b.py"] } faultyTree =
        .ok () := by
    decide +kernel
  have extended : tolerantConfig.lenientFixtures ⊆ ["main.py", "a.py", "b.py"] := by decide
  exact ⟨remarks, outcome, merged, merge_eq_of_more_fixtures extended valid merged, text⟩

/-! ## Faults that are passed over -/

namespace Setting

/-- The note on a file that breaks the grammar. -/
def brokenNote (setting : Setting) (location : Location) (error : SyntaxError) : String :=
  setting.display location.path ++ ": " ++ error.message ++ "; kept original text"

/-- The note on an import that leads nowhere. -/
def unresolvedNote? (setting : Setting) (location : Location) (declaration : ImportDeclaration) :
    Option String :=
  match setting.resolver.resolve setting.tree location.path declaration.module with
  | .missing reason =>
      some (setting.display location.path ++ ":" ++ toString declaration.line ++
        ": kept unresolved import " ++ String.ofList declaration.module.display ++ " (" ++
        reason.message ++ ")")
  | .library _ | .foreign => none

/-- The notes on the faults of a file that may have some: that it breaks the grammar, or else each
of its imports that leads nowhere. -/
def toleratedFaults (setting : Setting) (location : Location) : List String :=
  match setting.isLenient location, setting.tree.readAt location with
  | true, .ok text =>
      match ParsedSource.parse text with
      | .error error => [setting.brokenNote location error]
      | .ok source => source.imports.filterMap (setting.unresolvedNote? location)
  | _, _ => []

variable {setting : Setting} {location : Location}

theorem toleratedFaults_of_not_lenient
    (strict : setting.isLenient location = false) :
    setting.toleratedFaults location = [] := by
  simp only [toleratedFaults, strict]

theorem isLenient_of_noFixtures
    (noFixtures : setting.config.lenientFixtures = []) :
    setting.isLenient location = false := by
  have nothing (text : Text) : MergeConfig.describes [] text = false := rfl
  simp only [isLenient, MergeConfig.isLenient, noFixtures, nothing, Bool.false_or]
  cases location.names.getLast? <;> rfl

/-! ## Notes of a file -/

theorem notes_of_dependency
    {lenient : Bool}
    {declaration : ImportDeclaration}
    {found : Option Dependency}
    {remarks : List Remark}
    (settled : setting.dependency location lenient declaration = .ok (found, remarks)) :
    remarks.filterMap Remark.note? =
      if lenient then (setting.unresolvedNote? location declaration).toList else [] := by
  unfold dependency at settled
  unfold unresolvedNote?
  cases leads : setting.resolver.resolve setting.tree location.path declaration.module with
  | library target =>
      rw [leads] at settled
      obtain ⟨_, rfl⟩ := Prod.mk.inj (Except.ok.inj settled)
      unfold importRemarks
      cases declaration.names <;> simp [Remark.note?]
  | foreign =>
      rw [leads] at settled
      obtain ⟨_, rfl⟩ := Prod.mk.inj (Except.ok.inj settled)
      simp
  | missing reason =>
      rw [leads] at settled
      cases lenient with
      | true =>
          obtain ⟨_, rfl⟩ := Prod.mk.inj (Except.ok.inj settled)
          rfl
      | false => cases settled

theorem notes_of_dependencies
    {lenient : Bool} :
    ∀ {imports : List ImportDeclaration}
      {remarks : List Remark}
      {settled : List (ImportDeclaration × Option Dependency)},
      setting.dependencies location lenient imports = (remarks, .ok settled) →
        remarks.filterMap Remark.note? =
          if lenient then imports.filterMap (setting.unresolvedNote? location) else []
  | [], remarks, settled, done => by
      obtain ⟨rfl, _⟩ := Prod.mk.inj done
      simp
  | declaration :: declarations, remarks, settled, done => by
      unfold dependencies at done
      split at done
      next => cases (Prod.mk.inj done).2
      next found first here =>
        split at done
        next => cases (Prod.mk.inj done).2
        next more rest later =>
          obtain ⟨rfl, _⟩ := Prod.mk.inj done
          rw [List.filterMap_append, notes_of_dependency here, notes_of_dependencies later]
          cases lenient with
          | true =>
              cases noted : setting.unresolvedNote? location declaration <;> simp [noted]
          | false => rfl

/-- Loading a file notes the faults of it that are passed over. -/
theorem notes_of_load
    {id : Nat}
    {isMain : Bool}
    {remarks : List Remark}
    {module : Module}
    (loaded : setting.load id location isMain = (remarks, .ok module)) :
    remarks.filterMap Remark.note? = setting.toleratedFaults location := by
  unfold load at loaded
  split at loaded
  next => cases (Prod.mk.inj loaded).2
  next =>
    cases readable : setting.tree.readAt location with
    | error error =>
        rw [readable] at loaded
        cases (Prod.mk.inj loaded).2
    | ok text =>
        rw [readable] at loaded
        dsimp only at loaded
        cases analysed : ParsedSource.parse text with
        | error error =>
            rw [analysed] at loaded
            dsimp only at loaded
            split at loaded
            next lenient =>
              obtain ⟨rfl, _⟩ := Prod.mk.inj loaded
              simp only [toleratedFaults, lenient, readable, analysed]
              rfl
            next => cases (Prod.mk.inj loaded).2
        | ok source =>
            rw [analysed] at loaded
            dsimp only [plan] at loaded
            split at loaded
            next => cases (Prod.mk.inj loaded).2
            next imports settled =>
              obtain ⟨rfl, _⟩ := Prod.mk.inj loaded
              rw [notes_of_dependencies settled]
              cases lenient : setting.isLenient location <;>
                simp [toleratedFaults, lenient, readable, analysed]

end Setting

/-! ## Notes of a walk -/

/-- The note that an event amounts to.  Serving a module gives warnings at most. -/
def Event.note? : Event → Option String
  | .remark reported => reported.note?
  | .serve _ _ => none

theorem Setting.notes_eq (setting : Setting) (registry : Registry) (events : List Event) :
    (setting.remarks registry events).filterMap Remark.note? = events.filterMap Event.note? := by
  have served (module : Module) (request : Request) :
      (setting.missingRemarks module request).filterMap Remark.note? = [] := by
    simp [missingRemarks, Remark.note?]
  induction events with
  | nil => rfl
  | cons event events inductionHypothesis =>
      unfold remarks at inductionHypothesis ⊢
      rw [List.flatMap_cons, List.filterMap_append, inductionHypothesis]
      cases event with
      | remark remark => cases remark <;> rfl
      | serve id request =>
          dsimp only
          split
          · rw [served]
            rfl
          · rfl

namespace Walk

variable {setting : Setting} {walk after last : Walk}

/-- The notes so far. -/
def notes (walk : Walk) : List String :=
  walk.events.filterMap Event.note?

theorem notes_push
    (walk : Walk)
    (module : Module)
    (remarks : List Remark)
    (request : Request) :
    (walk.push module remarks request).notes =
      walk.notes ++ remarks.filterMap Remark.note? := by
  rw [notes, push, List.filterMap_append, List.filterMap_map]
  rfl

/-- A step notes the faults that are passed over in the file that it loads, if it loads one. -/
theorem notes_of_moves (moved : Moves setting walk after) :
    after.notes = walk.notes ++ walk.loading?.toList.flatMap setting.toleratedFaults := by
  cases moved with
  | leave frame frames top finished =>
      rw [loading?_of_finished top finished]
      simp [notes, Walk.leave, Event.note?, Function.comp_def]
  | enter frame frames dependency remaining remarks module top ahead unknown loaded =>
      rw [loading?_of_unknown top ahead unknown, notes_push, Setting.notes_of_load loaded]
      simp [notes, onward]
  | park frame frames dependency remaining id top ahead known waiting =>
      rw [loading?_of_known top ahead known]
      simp [notes, onward]
  | serve frame frames dependency remaining id top ahead known settled =>
      rw [loading?_of_known top ahead known]
      simp [notes, Event.note?]

theorem notes_of_run (ended : walk.run setting = (last, none)) :
    last.notes = walk.notes ++ (walk.loads setting).flatMap setting.toleratedFaults := by
  refine run_induction
    (motive := fun walk stages result => ∀ last, result = (last, none) →
      last.notes =
        walk.notes ++ (stages.filterMap loading?).flatMap setting.toleratedFaults)
    ?_ ?_ ?_ walk last ended
  · rintro walk _ last ended
    obtain rfl := (Prod.mk.inj ended).1
    simp
  · rintro walk remarks error _ last ended
    cases (Prod.mk.inj ended).2
  · intro walk after later result stepped inductionHypothesis last ended
    rw [inductionHypothesis last ended, notes_of_moves (moves_of_step stepped)]
    cases loads : walk.loading? with
    | none => simp [loads]
    | some location => simp [loads]

end Walk

/-! ## Notes of a merge -/

namespace Setting

variable {setting : Setting} {main : Location}

theorem notes_of_mergeAt
    {remarks : List Remark}
    {outcome : Outcome}
    (merged : setting.mergeAt main = (remarks, .ok outcome)) :
    outcome.notes = (setting.reads main).flatMap setting.toleratedFaults := by
  obtain ⟨mainRemarks, module, loaded, ⟨_, starts, rfl⟩ | ⟨start, walk, _, starts, isStart, ran,
    rfl⟩⟩ := exists_load_of_mergeAt merged
  · rw [reads_of_start?_eq_none starts, List.flatMap_singleton, ← notes_of_load loaded]
    rfl
  · have startNotes : start.notes = setting.toleratedFaults main := by
      rw [isStart, Walk.notes_push, notes_of_load loaded]
      rfl
    calc
      (setting.outcome main module.text walk).notes = walk.notes :=
        setting.notes_eq walk.registry walk.events
      _ = start.notes ++ (start.loads setting).flatMap setting.toleratedFaults :=
        Walk.notes_of_run ran
      _ = (setting.reads main).flatMap setting.toleratedFaults := by
        rw [startNotes, reads_of_start? starts, List.flatMap_cons]

/-- A main file that breaks the grammar and may do so is kept as it is. -/
theorem outcome_of_broken
    {remarks : List Remark}
    {outcome : Outcome}
    {text : Text}
    {error : SyntaxError}
    (merged : setting.mergeAt main = (remarks, .ok outcome))
    (readable : setting.tree.readAt main = .ok text)
    (broken : ParsedSource.parse text = .error error) :
    outcome.text = text ∧ outcome.modules = [] ∧
      outcome.notes = [setting.brokenNote main error] := by
  have unparsed : setting.tree.parsedAt? main = none := by
    rw [FileTree.parsedAt?, readable]
    simp only [broken, Except.toOption]
  obtain ⟨mainRemarks, module, loaded, ⟨_, _, rfl⟩ | ⟨_, _, analysed, _⟩⟩ :=
    exists_load_of_mergeAt merged
  · have sameText := text_of_load loaded
    rw [readable] at sameText
    refine ⟨(Except.ok.inj sameText).symm, rfl, ?_⟩
    have lenient : setting.isLenient main = true := by
      cases loads_of_load loaded with
      | analysed otherReadable otherAnalysed settled =>
          rw [readable] at otherReadable
          rw [← Except.ok.inj otherReadable, broken] at otherAnalysed
          cases otherAnalysed
      | verbatim _ _ lenient => exact lenient
    rw [verbatimOutcome, notes_of_load loaded]
    simp only [toleratedFaults, lenient, readable, broken]
  · rw [Module.isVerbatim, parsed_of_load loaded, unparsed] at analysed
    cases analysed

end Setting

/-- The notes of a merge are those on the faults that are passed over in the files that it reads,
file by file in the order in which they are loaded.  These files are the ones that can be reached
from the main file, each of them once.  No fault is passed over without patterns, and a main file
that breaks the grammar is kept as it is. -/
theorem notes_of_merge
    {config : MergeConfig}
    {tree : FileTree}
    {file : Path}
    {remarks : List Remark}
    {outcome : Outcome}
    (merged : merge config tree file = (remarks, .ok outcome)) :
    outcome.notes =
        (Setting.reads ⟨config, tree⟩ (tree.normalize file)).flatMap
          (Setting.toleratedFaults ⟨config, tree⟩) ∧
      (Setting.reads ⟨config, tree⟩ (tree.normalize file)).Nodup ∧
      (∀ location,
        location ∈ Setting.reads ⟨config, tree⟩ (tree.normalize file) ↔
          Setting.Reachable ⟨config, tree⟩ (tree.normalize file) location) ∧
      (config.lenientFixtures = [] → outcome.notes = []) ∧
      ∀ text error,
        tree.readAt (tree.normalize file) = .ok text →
          ParsedSource.parse text = .error error →
            outcome.text = text ∧
              outcome.modules = [] ∧
              outcome.notes =
                [Setting.brokenNote ⟨config, tree⟩ (tree.normalize file) error] := by
  obtain ⟨_, mergedAt⟩ := mergeAt_of_merge merged
  have notes := Setting.notes_of_mergeAt mergedAt
  have traversed := Setting.reads_eq_traversal (tree.isPlain_normalize file) mergedAt
  refine ⟨notes, ?_, ?_, ?_, ?_⟩
  · rw [traversed]
    exact (Setting.nodup_traversal [] _).1
  · intro location
    rw [traversed]
    exact Setting.mem_traversal_iff_reachable
  · intro noFixtures
    rw [notes, List.flatMap_eq_nil_iff]
    intro location _
    exact Setting.toleratedFaults_of_not_lenient (Setting.isLenient_of_noFixtures noFixtures)
  · intro text error readable broken
    exact Setting.outcome_of_broken mergedAt readable broken

theorem notes_of_merge_faultyTree :
    ∃ remarks outcome,
      merge tolerantConfig faultyTree (.ofString "main.py") = (remarks, .ok outcome) ∧
        outcome.notes =
          (Setting.reads ⟨tolerantConfig, faultyTree⟩
            (faultyTree.normalize (.ofString "main.py"))).flatMap
            (Setting.toleratedFaults ⟨tolerantConfig, faultyTree⟩) ∧
        outcome.notes =
          ["main.py:2: kept unresolved import lib.gone (no module file at /w/contest/lib/gone.py)",
            "contest/lib/a.py: Parse error at line 1, column 6; kept original text"] := by
  have evaluated :
      ∃ outcome,
        mergeWithin 12 tolerantConfig faultyTree (.ofString "main.py") = some outcome ∧
          outcome.notes = [
            "main.py:2: kept unresolved import lib.gone (no module file at /w/contest/lib/gone.py)",
            "contest/lib/a.py: Parse error at line 1, column 6; kept original text"] := by
    refine ⟨(mergeWithin 12 tolerantConfig faultyTree (.ofString "main.py")).getD
      ⟨[], ⟨[]⟩, [], []⟩, ?_⟩
    decide +kernel
  obtain ⟨outcome, found, notes⟩ := evaluated
  obtain ⟨remarks, merged⟩ := merge_eq_of_mergeWithin 12 found
  exact ⟨remarks, outcome, merged, (notes_of_merge merged).1, notes⟩

end Inliner
