import Inliner.Proofs.Merge.Failure
import Mathlib.Algebra.Ring.Nat

/-!
# Every walk comes to its end

Whatever the imports are, a run comes to its end.  If no file is refused, it takes one step for
each dependency of each loaded module and one to leave each of them, and the files it loads are
those that can be reached from the main file, in the order of `Setting.traversal` and each once.
The steps are counted by what `Walk.weight` says is still to do on the frames.  A main file that
breaks the grammar and may do so is loaded, but there is nothing to follow, and no step is taken.
-/

namespace Inliner

/-- The number of steps that the loaded modules call for: one for each dependency, and one to leave
the module. -/
def Registry.work (registry : Registry) : Nat :=
  (registry.modules.map fun module => module.dependencies.length + 1).sum

namespace Walk

variable {setting : Setting} {walk after last : Walk}

/-! ## Counting steps -/

theorem work_push
    (walk : Walk)
    (module : Module)
    (remarks : List Remark)
    (request : Request)
    (unknown : walk.registry.lookup module.path = none) :
    (walk.push module remarks request).registry.work =
      walk.registry.work + (module.dependencies.length + 1) := by
  simp [push, Registry.register_of_lookup_eq_none unknown, Registry.attach, Registry.work]

/-- A step does a unit of the work on the frames, and a file that it loads adds to that work what
its module calls for. -/
theorem work_of_moves (moved : Moves setting walk after) :
    after.weight + 1 + walk.registry.work = walk.weight + after.registry.work := by
  cases moved with
  | leave frame frames top finished =>
      have sameWork :
          ({ walk with frames := frames }.leave frame).registry.work = walk.registry.work := rfl
      rw [sameWork]
      simp only [weight, Walk.leave, top, weightOf, Frame.weight, finished, List.length_nil]
      omega
  | enter frame frames dependency remaining remarks module top ahead unknown loaded =>
      rw [← Setting.path_of_load loaded] at unknown
      have moreWork :=
        work_push (walk.onward frame remaining frames) module remarks dependency.request unknown
      rw [moreWork]
      simp only [weight, push, onward, top, weightOf, Frame.weight, ahead, List.length_cons]
      omega
  | park frame frames dependency remaining id top ahead known waiting =>
      simp only [weight, weight_park, onward, top, weightOf, Frame.weight, ahead,
        List.length_cons]
      omega
  | serve frame frames dependency remaining id top ahead known settled =>
      simp only [weight, onward, top, weightOf, Frame.weight, ahead, List.length_cons]
      omega

/-- The stages of a run do the work on the frames and that of the files that are loaded on the
way. -/
theorem length_stages_of_run (ended : walk.run setting = (last, none)) :
    (walk.stages setting).length + walk.registry.work = walk.weight + last.registry.work := by
  refine run_induction
    (motive := fun walk stages result => ∀ last, result = (last, none) →
      stages.length + walk.registry.work = walk.weight + last.registry.work)
    ?_ ?_ ?_ walk last ended
  · rintro walk finished last ended
    obtain rfl := (Prod.mk.inj ended).1
    simp [weight, frames_of_step finished, weightOf]
  · rintro walk remarks error _ last ended
    cases (Prod.mk.inj ended).2
  · intro walk after later result stepped inductionHypothesis last ended
    have rest := inductionHypothesis last ended
    have first := work_of_moves (moves_of_step stepped)
    rw [List.length_cons]
    omega

/-! ## The files that are loaded -/

/-- A run adds the module of each file that it loads, in order. -/
theorem exists_modules_of_run (ended : walk.run setting = (last, none)) :
    ∃ added,
      last.registry.modules = walk.registry.modules ++ added ∧
        List.Forall₂ (setting.LoadsInto false) (walk.loads setting) added := by
  refine run_induction
    (motive := fun walk stages result => ∀ last, result = (last, none) →
      ∃ added,
        last.registry.modules = walk.registry.modules ++ added ∧
          List.Forall₂ (setting.LoadsInto false) (stages.filterMap loading?) added)
    ?_ ?_ ?_ walk last ended
  · rintro walk _ last ended
    obtain rfl := (Prod.mk.inj ended).1
    exact ⟨[], by simp, .nil⟩
  · rintro walk remarks error _ last ended
    cases (Prod.mk.inj ended).2
  · intro walk after later result stepped inductionHypothesis last ended
    obtain ⟨added, rest, eachLoaded⟩ := inductionHypothesis last ended
    rcases registry_of_moves (moves_of_step stepped) with
      ⟨loadsNone, _, modules⟩ | ⟨location, module, loads, loaded, _, modules⟩
    · rw [List.filterMap_cons_none loadsNone, rest, modules]
      exact ⟨added, rfl, eachLoaded⟩
    · rw [List.filterMap_cons_some loads, rest, modules, List.append_assoc]
      exact ⟨module :: added, rfl, .cons loaded eachLoaded⟩

/-- The modules that a run adds have the paths of the files that it loads. -/
theorem modules_of_run (ended : walk.run setting = (last, none)) :
    last.registry.modules.map (·.path) =
      walk.registry.modules.map (·.path) ++ (walk.loads setting).map (·.path) := by
  obtain ⟨added, modules, eachLoaded⟩ := exists_modules_of_run ended
  have samePaths :
      List.Forall₂ (· = ·) (added.map (·.path)) ((walk.loads setting).map (·.path)) := by
    rw [List.forall₂_map_left_iff, List.forall₂_map_right_iff]
    exact eachLoaded.flip.imp fun _ _ => Setting.LoadsInto.path_eq
  rw [List.forall₂_eq_eq_eq] at samePaths
  rw [modules, List.map_append, samePaths]

/-- A run to the end loads the files that are met depth first, in this order. -/
theorem loads_of_follows
    {seen pending : List Location}
    (targetsPlain : ∀ location, ∀ target ∈ setting.targets location, target.IsPlain)
    (follows : walk.Follows seen pending)
    (ended : (walk.run setting).2 = none) :
    walk.loads setting = setting.traversal seen pending := by
  refine run_induction
    (motive := fun walk stages result => ∀ seen pending, walk.Follows seen pending →
      result.2 = none → stages.filterMap loading? = setting.traversal seen pending)
    ?_ ?_ ?_ walk seen pending follows ended
  · intro walk finished seen pending follows _
    have nothing : pending = [] := by
      rw [← follows.pending_eq, frames_of_step finished]
      rfl
    rw [nothing, Setting.traversal]
    rfl
  · intro walk remarks error _ seen pending _ ended
    cases ended
  · intro walk after later result stepped inductionHypothesis seen pending follows ended
    obtain ⟨nextSeen, nextPending, nextFollows, met, _⟩ :=
      follows_of_moves targetsPlain follows (moves_of_step stepped)
    have rest := inductionHypothesis nextSeen nextPending nextFollows ended
    rw [met, ← rest]
    cases loads : walk.loading? with
    | none => rw [List.filterMap_cons_none loads, Option.toList_none, List.nil_append]
    | some location => rw [List.filterMap_cons_some loads]; rfl

end Walk

/-! ## The walk of a merge -/

/-- The number of steps that a merge takes along the imports. There is none if the main file cannot
be loaded or is kept as it is. -/
def Setting.stepCount (setting : Setting) (main : Location) : Nat :=
  match setting.start? main with
  | some start => (start.stages setting).length
  | none => 0

/-- The walk of a merge comes to its end.  If every file on the way can be loaded, it takes one step
for each dependency of each loaded module and one for each module itself, and it loads the files
that can be reached from the main file, each of them once.  If the main file is kept as it is, there
is no walk: this file is the only one that can be reached. -/
theorem walk_ends_after_every_dependency (setting : Setting) (file : Path) :
    (∀ start,
      setting.start? (setting.tree.normalize file) = some start →
        (∃ steps, start.runWithin setting steps = some (start.run setting)) ∧
          ∀ walk,
            start.run setting = (walk, none) →
              setting.stepCount (setting.tree.normalize file) =
                  (walk.registry.modules.map fun module => module.dependencies.length + 1).sum ∧
                walk.registry.modules.map (·.path) =
                  (setting.tree.normalize file :: start.loads setting).map (·.path) ∧
                (setting.tree.normalize file :: start.loads setting).Nodup ∧
                ∀ location,
                  location ∈ setting.tree.normalize file :: start.loads setting ↔
                    setting.Reachable (setting.tree.normalize file) location) ∧
      ∀ remarks module,
        setting.load 0 (setting.tree.normalize file) true = (remarks, .ok module) →
          module.isVerbatim = true →
            setting.stepCount (setting.tree.normalize file) = 0 ∧
              module.dependencies = [] ∧
              ∀ location,
                setting.Reachable (setting.tree.normalize file) location ↔
                  location = setting.tree.normalize file := by
  constructor
  · intro start starts
    refine ⟨⟨_, Walk.runWithin_stages setting start⟩, ?_⟩
    intro walk ended
    have counts : setting.stepCount (setting.tree.normalize file) =
        (start.stages setting).length := by
      rw [Setting.stepCount, starts]
    rw [counts]
    obtain ⟨remarks, module, loaded, _, rfl⟩ := Setting.exists_load_of_start? starts
    have targetsPlain : ∀ location, ∀ target ∈ setting.targets location, target.IsPlain :=
      fun location target => Setting.isPlain_of_mem_targets
    have follows :=
      Walk.follows_start (setting.tree.isPlain_normalize file) targetsPlain loaded
    have loads := Walk.loads_of_follows targetsPlain follows (by rw [ended])
    have traversed :
        setting.tree.normalize file :: setting.traversal [setting.tree.normalize file]
            (setting.targets (setting.tree.normalize file)) =
          setting.traversal [] [setting.tree.normalize file] := by
      rw [Setting.traversal_cons_of_not_mem (by simp), List.append_nil]
    refine ⟨?_, ?_, ?_, ?_⟩
    · have counted := Walk.length_stages_of_run ended
      have startWork := Walk.work_push (Walk.empty setting) module remarks .main rfl
      have startWeight :
          ((Walk.empty setting).push module remarks .main).weight =
            module.dependencies.length + 1 := rfl
      have nothing : (Walk.empty setting).registry.work = 0 := rfl
      change _ = walk.registry.work
      omega
    · rw [Walk.modules_of_run ended, List.map_cons, ← Setting.path_of_load loaded]
      rfl
    · rw [loads, traversed]
      exact (Setting.nodup_traversal [] _).1
    · intro location
      rw [loads, traversed]
      exact Setting.mem_traversal_iff_reachable
  · intro remarks module loaded verbatim
    have noTargets : setting.targets (setting.tree.normalize file) = [] := by
      unfold Setting.targets
      rw [← Setting.parsed_of_load loaded, Option.isNone_iff_eq_none.mp verbatim]
    refine ⟨?_, ?_, ?_⟩
    · rw [Setting.stepCount, Setting.start?, loaded]
      dsimp only
      rw [if_pos verbatim]
    · cases Setting.loads_of_load loaded with
      | analysed => cases verbatim
      | verbatim => rfl
    · intro location
      rw [← Setting.mem_traversal_iff_reachable, Setting.traversal_cons_of_not_mem (by simp),
        noTargets, List.append_nil, Setting.traversal, List.mem_singleton]

theorem walk_ends_knottedTree :
    ∃ start walk,
      knottedSetting.start? (knottedTree.normalize (.ofString "main.py")) = some start ∧
        start.run knottedSetting = (walk, none) ∧
        walk.registry.modules.map (·.dependencies.length) = [2, 2, 1] ∧
        knottedSetting.stepCount (knottedTree.normalize (.ofString "main.py")) = 8 ∧
        (start.loads knottedSetting).map (·.path) =
          [.ofString "/w/contest/lib/a.py", .ofString "/w/contest/lib/b.py"] := by
  have facts :
      ∃ walk,
        knottedSetting.walkWithin 12 (knottedTree.normalize (.ofString "main.py")) = some walk ∧
          walk.registry.modules.map (·.dependencies.length) = [2, 2, 1] ∧
          walk.registry.modules.map (·.path) =
            [.ofString "/w/main.py", .ofString "/w/contest/lib/a.py",
              .ofString "/w/contest/lib/b.py"] := by
    refine ⟨(knottedSetting.walkWithin 12 (knottedTree.normalize (.ofString "main.py"))).getD
      (Walk.empty knottedSetting), ?_⟩
    decide +kernel
  obtain ⟨walk, ended, counts, paths⟩ := facts
  obtain ⟨start, starts, ran⟩ := Setting.exists_start_of_walkWithin 12 ended
  obtain ⟨walks, _⟩ := walk_ends_after_every_dependency knottedSetting (.ofString "main.py")
  obtain ⟨steps, loads, _⟩ := (walks start starts).2 walk ran
  refine ⟨start, walk, starts, ran, counts, ?_, ?_⟩
  · have eachOnce :
        walk.registry.modules.map (fun module => module.dependencies.length + 1) =
          (walk.registry.modules.map (·.dependencies.length)).map (· + 1) := by
      rw [List.map_map]
      rfl
    refine steps.trans ?_
    rw [eachOnce, counts]
    rfl
  · change walk.registry.modules.map (·.path) =
      (knottedTree.normalize (.ofString "main.py") :: _).map (·.path) at loads
    rw [paths, List.map_cons] at loads
    exact (List.cons.inj loads).2.symm

/-- A main file that breaks the grammar and may do so. -/
def opaqueSetting : Setting where
  config := { lenientFixtures := ["main.py"] }
  tree := (FileTree.empty ⟨["w".toList]⟩).put ⟨["w".toList, "main.py".toList]⟩
    (.text "x = (\n\n\n\n".toList)

/-- The main file is loaded, and with it all that can be reached; it has no dependency, and yet no
step is taken. -/
theorem opaqueSetting_takes_no_step :
    ∃ remarks module,
      opaqueSetting.load 0 (opaqueSetting.tree.normalize (.ofString "main.py")) true =
          (remarks, .ok module) ∧
        opaqueSetting.targets (opaqueSetting.tree.normalize (.ofString "main.py")) = [] ∧
        ([module].map fun module => module.dependencies.length + 1).sum = 1 ∧
        opaqueSetting.stepCount (opaqueSetting.tree.normalize (.ofString "main.py")) = 0 := by
  have facts :
      opaqueSetting.targets (opaqueSetting.tree.normalize (.ofString "main.py")) = [] ∧
        (opaqueSetting.load 0 (opaqueSetting.tree.normalize (.ofString "main.py"))
            true).2.toOption.map (fun module => (module.dependencies, module.isVerbatim)) =
          some ([], true) := by
    decide +kernel
  obtain ⟨noTargets, loads⟩ := facts
  obtain ⟨module, found, same⟩ := Option.map_eq_some_iff.mp loads
  obtain ⟨noDependencies, verbatim⟩ := Prod.mk.inj same
  cases loaded : opaqueSetting.load 0 (opaqueSetting.tree.normalize (.ofString "main.py")) true with
  | mk remarks result =>
      rw [loaded] at found
      cases result with
      | error error => cases found
      | ok other =>
          obtain rfl : other = module := Option.some.inj found
          refine ⟨remarks, other, rfl, noTargets, by simp [noDependencies], ?_⟩
          rw [Setting.stepCount, Setting.start?, loaded]
          dsimp only
          rw [if_pos verbatim]

end Inliner
