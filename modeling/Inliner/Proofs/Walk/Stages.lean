import Inliner.Proofs.Walk.Bounded
import Mathlib.Logic.Relation

/-!
# The stages of a run

A run goes on step by step.  `Walk.stages` lists the walks on which it takes a step, a last one
that fails included, and `Walk.loads` the locations of the files that are loaded on the way.
`Walk.run_induction` follows a run together with its stages, with one case for each way in which a
step can end; `Walk.registry_of_moves` says what a step does to the files that have been met.
-/

namespace Inliner

namespace Setting

/-- The file at a location is loaded, under some number, and this is its module. -/
def LoadsInto (setting : Setting) (isMain : Bool) (location : Location) (module : Module) : Prop :=
  ∃ id remarks, setting.load id location isMain = (remarks, .ok module)

theorem LoadsInto.path_eq
    {setting : Setting}
    {isMain : Bool}
    {location : Location}
    {module : Module}
    (loads : setting.LoadsInto isMain location module) :
    module.path = location.path := by
  obtain ⟨id, remarks, loaded⟩ := loads
  exact path_of_load loaded

end Setting

namespace Walk

/-! ## Steps -/

/-- One step leads from a walk to another one. -/
def Steps (setting : Setting) (walk after : Walk) : Prop :=
  walk.step setting = .next after

section Step

variable {setting : Setting} {walk after : Walk}

theorem frames_of_step (stepped : walk.step setting = .done) : walk.frames = [] := by
  have explained := explains_step setting walk
  rw [stepped] at explained
  exact explained

theorem moves_of_step (stepped : walk.Steps setting after) : Moves setting walk after := by
  have explained := explains_step setting walk
  rw [stepped] at explained
  exact explained

end Step

/-- The file that the next step loads: the one that the next import of the latest file leads to,
if it has not been met. -/
def loading? (walk : Walk) : Option Location :=
  match walk.frames with
  | [] => none
  | frame :: _ =>
      match frame.remaining with
      | [] => none
      | dependency :: _ =>
          match walk.registry.lookup dependency.target.path with
          | none => some dependency.target
          | some _ => none

section Loading

variable {walk : Walk} {frame : Frame} {frames : List Frame}
variable {dependency : Dependency} {remaining : List Dependency}

theorem loading?_of_unknown
    (top : walk.frames = frame :: frames)
    (ahead : frame.remaining = dependency :: remaining)
    (unknown : walk.registry.lookup dependency.target.path = none) :
    walk.loading? = some dependency.target := by
  simp only [loading?, top, ahead, unknown]

theorem loading?_of_known
    {id : Nat}
    (top : walk.frames = frame :: frames)
    (ahead : frame.remaining = dependency :: remaining)
    (known : walk.registry.lookup dependency.target.path = some id) :
    walk.loading? = none := by
  simp only [loading?, top, ahead, known]

theorem loading?_of_finished
    (top : walk.frames = frame :: frames)
    (finished : frame.remaining = []) :
    walk.loading? = none := by
  simp only [loading?, top, finished]

theorem lookup_of_loading?
    {location : Location}
    (loads : walk.loading? = some location) :
    walk.registry.lookup location.path = none := by
  unfold loading? at loads
  repeat' split at loads
  all_goals cases loads
  assumption

/-- A step that loads no file is the same whatever the files and the configuration are. -/
theorem step_eq_of_loading?_eq_none
    (setting other : Setting)
    (loadsNone : walk.loading? = none) :
    walk.step setting = walk.step other := by
  cases frames : walk.frames with
  | nil => simp only [step, frames]
  | cons frame rest =>
      cases remaining : frame.remaining with
      | nil => simp only [step, frames, remaining]
      | cons dependency later =>
          cases found : walk.registry.lookup dependency.target.path with
          | none =>
              have loads := loading?_of_unknown frames remaining found
              rw [loadsNone] at loads
              cases loads
          | some id => simp only [step, frames, remaining, found]

end Loading

/-! ## What a step does to the files that have been met -/

/-- A step leaves the files that have been met and their modules as they are, or it loads a file
that has not been met. -/
theorem registry_of_moves
    {setting : Setting}
    {walk after : Walk}
    (moved : Moves setting walk after) :
    (walk.loading? = none ∧
      after.registry.keys = walk.registry.keys ∧
      after.registry.modules = walk.registry.modules) ∨
    ∃ location module,
      walk.loading? = some location ∧
      setting.LoadsInto false location module ∧
      after.registry.keys = walk.registry.keys ++ [location.path.components] ∧
      after.registry.modules = walk.registry.modules ++ [module] := by
  cases moved with
  | leave frame frames top finished =>
      exact Or.inl ⟨loading?_of_finished top finished, Registry.keys_markResolved _ _, rfl⟩
  | enter frame frames dependency remaining remarks module top ahead unknown loaded =>
      have samePath := Setting.path_of_load loaded
      refine Or.inr ⟨dependency.target, module, loading?_of_unknown top ahead unknown,
        ⟨_, _, loaded⟩, ?_, ?_⟩
      · simp [push, onward, samePath, Registry.register_of_lookup_eq_none unknown]
      · simp [push, onward, samePath, Registry.register_of_lookup_eq_none unknown,
          Registry.attach]
  | park frame frames dependency remaining id top ahead known waiting =>
      exact Or.inl ⟨loading?_of_known top ahead known, rfl, rfl⟩
  | serve frame frames dependency remaining id top ahead known settled =>
      exact Or.inl ⟨loading?_of_known top ahead known, rfl, rfl⟩

/-! ## Stages -/

/-- The walks on which a run takes a step, in order. -/
def stages (setting : Setting) (walk : Walk) : List Walk :=
  match _stepped : walk.step setting with
  | .done => []
  | .failed _ _ => [walk]
  | .next after => walk :: stages setting after
termination_by walk.measure setting
decreasing_by exact measure_step_lt ‹walk.step setting = .next after›

/-- The locations of the files that a run loads, in order. -/
def loads (setting : Setting) (walk : Walk) : List Location :=
  (walk.stages setting).filterMap loading?

/-- What holds at the end of a run holds at its start, if it is passed on from the walk after a
step to the walk before it. -/
theorem run_induction
    {setting : Setting}
    {motive : Walk → List Walk → Walk × Option MergeError → Prop}
    (done : ∀ walk, walk.step setting = .done → motive walk [] (walk, none))
    (failed : ∀ walk remarks error, walk.step setting = .failed remarks error →
      motive walk [walk]
        ({ walk with events := walk.events ++ remarks.map .remark }, some error))
    (next : ∀ walk after later result, walk.Steps setting after →
      motive after later result → motive walk (walk :: later) result)
    (walk : Walk) :
    motive walk (walk.stages setting) (walk.run setting) := by
  induction walk using run.induct setting with
  | case1 walk finished =>
      have noStages : walk.stages setting = [] := by
        rw [stages]
        split <;> simp_all
      have ended : walk.run setting = (walk, none) := by
        rw [run]
        split <;> simp_all
      rw [noStages, ended]
      exact done walk finished
  | case2 walk remarks error stuck =>
      have oneStage : walk.stages setting = [walk] := by
        rw [stages]
        split <;> simp_all
      have ended :
          walk.run setting =
            ({ walk with events := walk.events ++ remarks.map .remark }, some error) := by
        rw [run]
        split <;> simp_all
      rw [oneStage, ended]
      exact failed walk remarks error stuck
  | case3 walk after stepped inductionHypothesis =>
      have oneMore : walk.stages setting = walk :: after.stages setting := by
        rw [stages]
        split <;> simp_all
      have same : walk.run setting = after.run setting := by
        rw [run]
        split <;> simp_all
      rw [oneMore, same]
      exact next walk after _ _ stepped inductionHypothesis

/-- A run ends within one step more than it has stages. -/
theorem runWithin_stages (setting : Setting) (walk : Walk) :
    walk.runWithin setting ((walk.stages setting).length + 1) = some (walk.run setting) := by
  refine run_induction
    (motive := fun walk stages result =>
      walk.runWithin setting (stages.length + 1) = some result) ?_ ?_ ?_ walk
  · intro walk finished
    simp only [runWithin, finished]
  · intro walk remarks error stuck
    simp only [runWithin, stuck]
  · intro walk after later result stepped ended
    have firstStep : walk.step setting = .next after := stepped
    rw [List.length_cons, runWithin, firstStep]
    exact ended

/-! ## Files are loaded once -/

/-- A run loads files that have not been met, each of them once. -/
theorem nodup_loads (setting : Setting) (walk : Walk) :
    ((walk.loads setting).map (·.path.components)).Nodup ∧
      ∀ location ∈ walk.loads setting, location.path.components ∉ walk.registry.keys := by
  refine run_induction
    (motive := fun walk stages _ =>
      ((stages.filterMap loading?).map (·.path.components)).Nodup ∧
        ∀ location ∈ stages.filterMap loading?,
          location.path.components ∉ walk.registry.keys) ?_ ?_ ?_ walk
  · intro walk _
    simp
  · intro walk remarks error _
    cases loads : walk.loading? with
    | none => simp [loads]
    | some location =>
        have absent := Registry.lookup_eq_none_iff.mp (lookup_of_loading? loads)
        simpa [loads] using absent
  · rintro walk after later result stepped ⟨nodup, fresh⟩
    rcases registry_of_moves (moves_of_step stepped) with
      ⟨loads, keys, _⟩ | ⟨location, module, loads, _, keys, _⟩
    · rw [List.filterMap_cons_none loads, ← keys]
      exact ⟨nodup, fresh⟩
    · have absent := Registry.lookup_eq_none_iff.mp (lookup_of_loading? loads)
      rw [List.filterMap_cons_some loads]
      refine ⟨?_, ?_⟩
      · rw [List.map_cons, List.nodup_cons]
        refine ⟨?_, nodup⟩
        intro again
        obtain ⟨other, member, same⟩ := List.mem_map.mp again
        apply fresh other member
        rw [keys, same]
        exact List.mem_append_right _ (List.mem_singleton_self _)
      · intro other member
        rcases List.mem_cons.mp member with rfl | later
        · exact absent
        · intro known
          apply fresh other later
          rw [keys]
          exact List.mem_append_left _ known

end Walk

/-! ## Where a run starts -/

namespace Setting

/-- The walk on which a merge starts to follow imports, if its main file is loaded and could be
analysed. -/
def start? (setting : Setting) (main : Location) : Option Walk :=
  match setting.load 0 main true with
  | (_, .error _) => none
  | (remarks, .ok module) =>
      if module.isVerbatim then
        none
      else
        some ((Walk.empty setting).push module remarks .main)

theorem exists_load_of_start?
    {setting : Setting}
    {main : Location}
    {start : Walk}
    (starts : setting.start? main = some start) :
    ∃ remarks module,
      setting.load 0 main true = (remarks, .ok module) ∧
      module.isVerbatim = false ∧
      start = (Walk.empty setting).push module remarks .main := by
  unfold start? at starts
  split at starts
  next => cases starts
  next remarks module loaded =>
    split at starts
    next => cases starts
    next analysed =>
      exact ⟨remarks, module, loaded, by simpa using analysed, (Option.some.inj starts).symm⟩

theorem exists_start_of_walkWithin
    {setting : Setting}
    {main : Location}
    {walk : Walk}
    (steps : Nat)
    (ended : setting.walkWithin steps main = some walk) :
    ∃ start, setting.start? main = some start ∧ start.run setting = (walk, none) := by
  unfold walkWithin at ended
  split at ended
  next => cases ended
  next remarks module loaded =>
    split at ended
    next last ran =>
      split at ended
      next => cases ended
      next analysed =>
        obtain rfl := Option.some.inj ended
        refine ⟨(Walk.empty setting).push module remarks .main, ?_, Walk.run_of_runWithin ran⟩
        rw [start?, loaded]
        exact if_neg analysed
    next => cases ended

end Setting

/-- A main file, and two library modules that import each other, one of which imports itself. -/
def knottedTree : FileTree :=
  let files : List (List String × String) :=
    [(["w", "main.py"], "from lib.a import f\nimport lib.b\nf()\n"),
      (["w", "contest", "lib", "a.py"], "from lib.a import f\nfrom lib.b import g\ndef f(): g\n"),
      (["w", "contest", "lib", "b.py"], "from lib.a import *\ndef g(): f\n")]
  files.foldl
    (fun tree file => tree.put ⟨file.1.map (·.toList)⟩ (.text file.2.toList))
    (.empty ⟨["w".toList]⟩)

/-- That main file in the default configuration. -/
def knottedSetting : Setting := ⟨{}, knottedTree⟩

end Inliner
