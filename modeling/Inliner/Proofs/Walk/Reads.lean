import Inliner.Proofs.Walk.Termination

/-!
# The files that a merge reads

A merge reads its main file and the files that its walk loads, and nothing else of the tree counts
beyond where their imports lead.  All of them can be reached from the main file; if the merge
succeeds they are the files that can be reached, each of them once.  So a merge gives the same
result in two settings that load these files alike: the two runs take the same steps.
-/

namespace Inliner

namespace Walk

variable {setting other : Setting} {main : Location} {walk after : Walk}

/-! ## Only what can be reached is read -/

/-- The imports that a walk has still to follow lead to files that can be reached. -/
def StaysReachable (setting : Setting) (main : Location) (walk : Walk) : Prop :=
  ∀ frame ∈ walk.frames, ∀ dependency ∈ frame.remaining,
    setting.Reachable main dependency.target

/-- A file is loaded because the next import of the latest file leads to it and it has not been
met. -/
theorem exists_next_of_loading?
    {location : Location}
    (loads : walk.loading? = some location) :
    ∃ frame frames dependency remaining,
      walk.frames = frame :: frames ∧
        frame.remaining = dependency :: remaining ∧
        walk.registry.lookup dependency.target.path = none ∧
        dependency.target = location := by
  cases top : walk.frames with
  | nil =>
      simp only [loading?, top] at loads
      cases loads
  | cons frame frames =>
      cases ahead : frame.remaining with
      | nil =>
          rw [loading?_of_finished top ahead] at loads
          cases loads
      | cons dependency remaining =>
          cases found : walk.registry.lookup dependency.target.path with
          | none =>
              rw [loading?_of_unknown top ahead found] at loads
              exact ⟨frame, frames, dependency, remaining, rfl, ahead, found,
                Option.some.inj loads⟩
          | some id =>
              rw [loading?_of_known top ahead found] at loads
              cases loads

theorem reachable_of_loading?
    {location : Location}
    (stays : walk.StaysReachable setting main)
    (loads : walk.loading? = some location) :
    setting.Reachable main location := by
  obtain ⟨frame, frames, dependency, remaining, top, ahead, _, rfl⟩ :=
    exists_next_of_loading? loads
  apply stays frame (by rw [top]; exact List.mem_cons_self) dependency
  rw [ahead]
  exact List.mem_cons_self

theorem StaysReachable.onward
    {frame : Frame}
    {frames : List Frame}
    {dependency : Dependency}
    {remaining : List Dependency}
    (stays : walk.StaysReachable setting main)
    (top : walk.frames = frame :: frames)
    (ahead : frame.remaining = dependency :: remaining) :
    (walk.onward frame remaining frames).StaysReachable setting main := by
  unfold StaysReachable at stays ⊢
  rw [top] at stays
  intro other member later inRemaining
  rcases List.mem_cons.mp member with rfl | below
  · apply stays frame List.mem_cons_self
    rw [ahead]
    exact List.mem_cons_of_mem dependency inRemaining
  · exact stays other (List.mem_cons_of_mem frame below) later inRemaining

/-- What the imports of a file that can be reached lead to can be reached. -/
theorem StaysReachable.push
    {location : Location}
    {id : Nat}
    {isMain : Bool}
    {remarks : List Remark}
    {module : Module}
    (stays : walk.StaysReachable setting main)
    (reachable : setting.Reachable main location)
    (loaded : setting.load id location isMain = (remarks, .ok module))
    (request : Request) :
    (walk.push module remarks request).StaysReachable setting main := by
  have targets : module.dependencies.map (·.target) = setting.targets location := by
    rcases setting.load_eq id location isMain with
      ⟨_, _, failed, _⟩ | ⟨otherRemarks, otherModule, otherLoaded, _, targets⟩
    · rw [loaded] at failed
      cases (Prod.mk.inj failed).2
    · rw [loaded] at otherLoaded
      obtain rfl := Except.ok.inj (Prod.mk.inj otherLoaded).2
      exact targets
  intro frame member dependency inRemaining
  rcases List.mem_cons.mp member with rfl | below
  · apply reachable.follow
    rw [← targets]
    exact List.mem_map_of_mem inRemaining
  · exact stays frame below dependency inRemaining

theorem staysReachable_of_moves
    (stays : walk.StaysReachable setting main)
    (moved : Moves setting walk after) :
    after.StaysReachable setting main := by
  cases moved with
  | leave frame frames top finished =>
      unfold StaysReachable at stays
      rw [top] at stays
      exact fun other below => stays other (List.mem_cons_of_mem frame below)
  | enter frame frames dependency remaining remarks module top ahead unknown loaded =>
      have loads := loading?_of_unknown top ahead unknown
      exact (stays.onward top ahead).push (reachable_of_loading? stays loads) loaded _
  | park frame frames dependency remaining id top ahead known waiting =>
      intro parked member later inRemaining
      obtain ⟨frame, inFrames, rfl⟩ := List.mem_map.mp member
      rw [Frame.remaining_park] at inRemaining
      exact stays.onward top ahead frame inFrames later inRemaining
  | serve frame frames dependency remaining id top ahead known settled =>
      exact stays.onward top ahead

theorem reachable_of_mem_loads
    {location : Location}
    (stays : walk.StaysReachable setting main)
    (loaded : location ∈ walk.loads setting) :
    setting.Reachable main location := by
  refine run_induction
    (motive := fun walk stages _ => walk.StaysReachable setting main →
      ∀ location ∈ stages.filterMap loading?, setting.Reachable main location)
    ?_ ?_ ?_ walk stays location loaded
  · intro walk _ _ location member
    cases member
  · intro walk remarks error _ stays location member
    obtain ⟨stage, inStages, loads⟩ := List.mem_filterMap.mp member
    rw [List.mem_singleton.mp inStages] at loads
    exact reachable_of_loading? stays loads
  · intro walk after later result stepped inductionHypothesis stays location member
    obtain ⟨stage, inStages, loads⟩ := List.mem_filterMap.mp member
    rcases List.mem_cons.mp inStages with rfl | inLater
    · exact reachable_of_loading? stays loads
    · have afterStays := staysReachable_of_moves stays (moves_of_step stepped)
      exact inductionHypothesis afterStays location
        (List.mem_filterMap.mpr ⟨stage, inLater, loads⟩)

/-! ## Runs in lock step -/

theorem run_eq (setting : Setting) (walk : Walk) :
    walk.run setting =
      match walk.step setting with
      | .done => (walk, none)
      | .failed remarks error =>
          ({ walk with events := walk.events ++ remarks.map .remark }, some error)
      | .next after => after.run setting := by
  rw [run]
  split <;> simp_all

end Walk

namespace Setting

/-- Two settings load the file at a location alike. -/
def LoadsAlike (setting other : Setting) (location : Location) : Prop :=
  ∀ id isMain, other.load id location isMain = setting.load id location isMain

/-- Imports that amount to the same one by one do so together. -/
theorem dependencies_eq_of_forall
    {setting other : Setting}
    {location : Location}
    {lenient strict : Bool} :
    ∀ {imports : List ImportDeclaration},
      (∀ declaration ∈ imports,
        other.dependency location lenient declaration =
          setting.dependency location strict declaration) →
        other.dependencies location lenient imports =
          setting.dependencies location strict imports
  | [], _ => rfl
  | declaration :: declarations, same => by
      obtain ⟨here, later⟩ := List.forall_mem_cons.mp same
      simp only [dependencies, here, dependencies_eq_of_forall later]

end Setting

namespace Walk

variable {setting other : Setting} {main : Location} {walk : Walk}

/-- A step depends on the setting only through the file that it loads. -/
theorem step_congr
    (alike : ∀ location ∈ walk.loading?, setting.LoadsAlike other location) :
    walk.step other = walk.step setting := by
  cases loads : walk.loading? with
  | none => exact step_eq_of_loading?_eq_none other setting loads
  | some location =>
      rw [loads] at alike
      obtain ⟨frame, frames, dependency, remaining, top, ahead, unknown, rfl⟩ :=
        exists_next_of_loading? loads
      have same := alike dependency.target rfl
      simp only [step, top, ahead, unknown, enter, same _ false]

/-- A run depends on the setting only through the files that it loads. -/
theorem run_congr
    (alike : ∀ location ∈ walk.loads setting, setting.LoadsAlike other location) :
    walk.run other = walk.run setting := by
  refine run_induction
    (motive := fun walk stages result =>
      (∀ location ∈ stages.filterMap loading?, setting.LoadsAlike other location) →
        walk.run other = result)
    ?_ ?_ ?_ walk alike
  · intro walk finished _
    have loadsNone : walk.loading? = none := by
      simp only [loading?, frames_of_step finished]
    have same : walk.step other = .done :=
      (step_eq_of_loading?_eq_none other setting loadsNone).trans finished
    rw [run_eq, same]
  · intro walk remarks error stuck alike
    have same : walk.step other = .failed remarks error := by
      rw [← stuck]
      apply step_congr
      intro location loads
      exact alike location (List.mem_filterMap.mpr ⟨walk, List.mem_singleton_self walk, loads⟩)
    rw [run_eq, same]
  · intro walk after later result stepped inductionHypothesis alike
    have same : walk.step other = .next after := by
      rw [← (stepped : walk.step setting = .next after)]
      apply step_congr
      intro location loads
      exact alike location (List.mem_filterMap.mpr ⟨walk, List.mem_cons_self, loads⟩)
    rw [run_eq, same]
    apply inductionHypothesis
    intro location member
    obtain ⟨stage, inLater, loads⟩ := List.mem_filterMap.mp member
    exact alike location (List.mem_filterMap.mpr ⟨stage, List.mem_cons_of_mem walk inLater, loads⟩)

end Walk

/-! ## What a merge reads -/

namespace Setting

variable {setting other : Setting} {main : Location}

/-- The files that a merge of a main file loads, in order; one that makes it fail comes last. -/
def reads (setting : Setting) (main : Location) : List Location :=
  main :: ((setting.start? main).map (·.loads setting)).getD []

theorem reads_of_start?
    {start : Walk}
    (starts : setting.start? main = some start) :
    setting.reads main = main :: start.loads setting := by
  rw [reads, starts]
  rfl

theorem reads_of_start?_eq_none
    (starts : setting.start? main = none) :
    setting.reads main = [main] := by
  rw [reads, starts]
  rfl

/-- A list of files with the main file and all that its files lead to has every file that can be
reached. -/
theorem Reachable.mem_of_closed
    {known : List Location}
    {location : Location}
    (hasMain : main ∈ known)
    (closed : ∀ location ∈ known, ∀ target ∈ setting.targets location, target ∈ known)
    (reachable : setting.Reachable main location) :
    location ∈ known := by
  induction reachable with
  | main => exact hasMain
  | follow _ imported inductionHypothesis => exact closed _ inductionHypothesis _ imported

theorem staysReachable_of_start?
    {start : Walk}
    (starts : setting.start? main = some start) :
    start.StaysReachable setting main := by
  obtain ⟨remarks, module, loaded, _, rfl⟩ := exists_load_of_start? starts
  have nothing : (Walk.empty setting).StaysReachable setting main :=
    fun _ impossible => nomatch impossible
  exact nothing.push .main loaded .main

theorem reachable_of_mem_reads
    {location : Location}
    (read : location ∈ setting.reads main) :
    setting.Reachable main location := by
  rcases List.mem_cons.mp read with rfl | later
  · exact .main
  · cases starts : setting.start? main with
    | none =>
        rw [starts] at later
        cases later
    | some start =>
        rw [starts] at later
        exact Walk.reachable_of_mem_loads (staysReachable_of_start? starts) later

/-- A merge that succeeds has its main file loaded, and either keeps it as it is or completes a
walk. -/
theorem exists_load_of_mergeAt
    {remarks : List Remark}
    {outcome : Outcome}
    (merged : setting.mergeAt main = (remarks, .ok outcome)) :
    ∃ mainRemarks module,
      setting.load 0 main true = (mainRemarks, .ok module) ∧
        ((module.isVerbatim = true ∧ setting.start? main = none ∧
            outcome = verbatimOutcome main module.text mainRemarks) ∨
          ∃ start walk,
            module.isVerbatim = false ∧
            setting.start? main = some start ∧
            start = (Walk.empty setting).push module mainRemarks .main ∧
            start.run setting = (walk, none) ∧
            outcome = setting.outcome main module.text walk) := by
  unfold mergeAt at merged
  split at merged
  next => cases (Prod.mk.inj merged).2
  next mainRemarks module loaded =>
    refine ⟨mainRemarks, module, loaded, ?_⟩
    split at merged
    next verbatim =>
      refine Or.inl ⟨verbatim, ?_, (Except.ok.inj (Prod.mk.inj merged).2).symm⟩
      rw [start?, loaded]
      exact if_pos verbatim
    next analysed =>
      split at merged
      next => cases (Prod.mk.inj merged).2
      next walk ran =>
        refine Or.inr ⟨_, walk, by simpa using analysed, ?_, rfl, ran,
          (Except.ok.inj (Prod.mk.inj merged).2).symm⟩
        rw [start?, loaded]
        exact if_neg analysed

/-- The modules of a walk that came to its end are those of the files that are read, in order. -/
theorem Completes.exists_modules
    {walk : Walk}
    (completes : setting.Completes main walk) :
    ∃ remarks module locations others,
      setting.load 0 main true = (remarks, .ok module) ∧
        setting.reads main = main :: locations ∧
        walk.registry.modules = module :: others ∧
        List.Forall₂ (setting.LoadsInto false) locations others := by
  obtain ⟨remarks, module, loaded, _, analysed, ran⟩ := completes
  have starts : setting.start? main = some ((Walk.empty setting).push module remarks .main) := by
    rw [start?, loaded]
    exact if_neg (by simpa [Module.isVerbatim] using Option.isSome_iff_ne_none.mp analysed)
  obtain ⟨others, modules, eachLoaded⟩ := Walk.exists_modules_of_run ran
  exact ⟨remarks, module, _, others, loaded, reads_of_start? starts, modules, eachLoaded⟩

/-- A merge that succeeds reads the files that are met depth first, in this order. -/
theorem reads_eq_traversal
    {remarks : List Remark}
    {outcome : Outcome}
    (mainPlain : main.IsPlain)
    (merged : setting.mergeAt main = (remarks, .ok outcome)) :
    setting.reads main = setting.traversal [] [main] := by
  have targetsPlain : ∀ location, ∀ target ∈ setting.targets location, target.IsPlain :=
    fun location target => isPlain_of_mem_targets
  rw [traversal_cons_of_not_mem (by simp), List.append_nil]
  obtain ⟨mainRemarks, module, loaded, ⟨verbatim, starts, _⟩ | ⟨start, walk, _, starts, isStart,
    ran, _⟩⟩ := exists_load_of_mergeAt merged
  · have noTargets : setting.targets main = [] := by
      rw [targets, ← parsed_of_load loaded, Option.isNone_iff_eq_none.mp verbatim]
    rw [reads_of_start?_eq_none starts, noTargets, traversal]
  · have follows := Walk.follows_start mainPlain targetsPlain loaded
    rw [← isStart] at follows
    rw [reads_of_start? starts, Walk.loads_of_follows targetsPlain follows (by rw [ran])]

/-- The library modules that are part of a merged text are among the files that are read. -/
theorem exists_read_of_mem_modules
    {remarks : List Remark}
    {outcome : Outcome}
    {path : Path}
    (merged : setting.mergeAt main = (remarks, .ok outcome))
    (member : path ∈ outcome.modules) :
    ∃ location ∈ setting.reads main, path = location.path := by
  obtain ⟨mainRemarks, module, loaded, ⟨_, _, rfl⟩ | ⟨start, walk, _, starts, isStart, ran, rfl⟩⟩ :=
    exists_load_of_mergeAt merged
  · cases member
  · obtain ⟨id, _, found⟩ := List.mem_filterMap.mp member
    obtain ⟨served, isModule, rfl⟩ := Option.map_eq_some_iff.mp found
    have startModules : start.registry.modules = [module] := by
      rw [isStart]
      rfl
    have paths :
        walk.registry.modules.map (·.path) = (setting.reads main).map (·.path) := by
      rw [Walk.modules_of_run ran, startModules, reads_of_start? starts, List.map_cons,
        List.map_cons, path_of_load loaded]
      rfl
    have inModules : served.path ∈ walk.registry.modules.map (·.path) :=
      List.mem_map_of_mem (List.mem_of_getElem? isModule)
    rw [paths] at inModules
    obtain ⟨location, read, samePath⟩ := List.mem_map.mp inModules
    exact ⟨location, read, samePath.symm⟩

/-! ## Merges in lock step -/

section Alike

variable (sameRoot : other.workspaceRoot = setting.workspaceRoot)
variable (samePolicy : other.config.symbolPolicy = setting.config.symbolPolicy)
include sameRoot samePolicy

theorem remarks_congr (registry : Registry) (events : List Event) :
    other.remarks registry events = setting.remarks registry events := by
  simp only [remarks, missingRemarks, display, sameRoot, samePolicy]

theorem outcome_congr (main : Location) (text : Text) (walk : Walk) :
    other.outcome main text walk = setting.outcome main text walk := by
  simp only [outcome, output, samePolicy, remarks_congr sameRoot samePolicy]

/-- Settings that load every file that can be reached alike merge alike. -/
theorem mergeAt_congr
    (alike : ∀ location, setting.Reachable main location → setting.LoadsAlike other location) :
    other.mergeAt main = setting.mergeAt main := by
  have sameEmpty : Walk.empty other = Walk.empty setting := by
    rw [Walk.empty, Walk.empty, sameRoot]
  unfold mergeAt
  rw [alike main .main 0 true]
  split
  next => rfl
  next remarks module loaded =>
    split
    next => rfl
    next analysed =>
      have starts :
          setting.start? main = some ((Walk.empty setting).push module remarks .main) := by
        rw [start?, loaded]
        exact if_neg analysed
      have sameRun :
          ((Walk.empty setting).push module remarks .main).run other =
            ((Walk.empty setting).push module remarks .main).run setting := by
        apply Walk.run_congr
        intro location read
        apply alike
        exact Walk.reachable_of_mem_loads (staysReachable_of_start? starts) read
      rw [sameEmpty, sameRun]
      simp only [remarks_congr sameRoot samePolicy, outcome_congr sameRoot samePolicy]

end Alike

end Setting

/-- A tree of text files, each with the names on the way to it, and with the current directory. -/
def FileTree.ofTexts (current : List String) (files : List (List String × String)) : FileTree :=
  files.foldl
    (fun tree file => tree.put ⟨file.1.map (·.toList)⟩ (.text file.2.toList))
    (.empty ⟨current.map (·.toList)⟩)

end Inliner
