import Inliner.Proofs.Walk.Stages
import Mathlib.Logic.Function.Iterate

/-!
# Walks stay consistent

The numbers of the files, their states, the loaded modules and the stack of frames change at
different moments of a walk.  `Walk.Tidy` is what every step keeps of them; from it follows, for
every walk that a merge comes to, that no number is out of range, that a file under way is found on
the stack, and that the next module gets the next number.
-/

namespace Inliner

namespace Registry

variable {registry : Registry} {stack : List Nat} {id : Nat} {path : Path}

theorem state?_register
    (unknown : registry.lookup path = none)
    {state : FileState}
    (known : registry.state? id = some state) :
    (registry.register path).1.state? id = some state := by
  have inRange := lt_length_of_state? known
  rw [register_of_lookup_eq_none unknown, state?, states_add,
    List.getElem?_append_left inRange]
  exact known

theorem lt_length_of_lookup (found : registry.lookup path = some id) :
    id < registry.states.length := by
  have given := getElem?_keys_of_lookup found
  rw [← length_keys]
  exact (List.getElem?_eq_some_iff.mp given).1

/-- A file that has been met and is not under way has been dealt with. -/
theorem state?_eq_resolved
    (inRange : id < registry.states.length)
    (settled : registry.state? id ≠ some .inProgress) :
    registry.state? id = some .resolved := by
  have known : registry.state? id = some registry.states[id] := List.getElem?_eq_getElem inRange
  rw [known] at settled ⊢
  cases state : registry.states[id] with
  | inProgress => exact absurd (congrArg some state) settled
  | resolved => rfl

/-- The index holds the components of each loaded module, with its number. -/
theorem Tracks.index_eq (tracks : registry.Tracks stack) :
    registry.index = registry.modules.map fun module => (module.path.components, module.id) := by
  have components : registry.index.map (·.1) = registry.modules.map (·.path.components) :=
    tracks.keys_eq
  have numbers : registry.index.map (·.2) = registry.modules.map (·.id) := by
    rw [registry.numbers_index, tracks.length_eq, tracks.ids_eq]
  calc registry.index
      = (registry.index.map (·.1)).zip (registry.index.map (·.2)) :=
        List.zip_of_prod rfl rfl
    _ = registry.modules.map fun module => (module.path.components, module.id) := by
        rw [components, numbers, List.zip_map']

/-- A file is found under a number exactly if its path is that of the module of this number. -/
theorem Tracks.lookup_eq_some_iff
    (tracks : registry.Tracks stack)
    {module : Module}
    (found : registry.module? id = some module) :
    registry.lookup path = some id ↔ path.components = module.path.components := by
  have given : registry.keys[id]? = some module.path.components := by
    rw [tracks.keys_eq, List.getElem?_map]
    exact congrArg (Option.map (·.path.components)) found
  constructor
  · intro known
    exact Option.some.inj ((getElem?_keys_of_lookup known).symm.trans given)
  · intro samePath
    rw [lookup_eq_numberOf?, samePath]
    exact numberOf?_of_getElem?_keys tracks.keys_nodup given

end Registry

namespace Walk

variable {setting : Setting} {walk after later : Walk}

/-! ## What every step keeps -/

/-- What every step keeps of a walk: files, modules and frames fit together, each frame is that of a
loaded module and has a last part of its dependencies still to follow, and only files that have been
dealt with have been served. -/
structure Tidy (walk : Walk) : Prop where
  sound : walk.Sound
  frame_module : ∀ frame ∈ walk.frames,
    ∃ module,
      walk.registry.module? frame.module = some module ∧
        frame.remaining <:+ module.dependencies
  served_resolved : ∀ id request,
    .serve id request ∈ walk.events → walk.registry.state? id = some .resolved

/-- Files that have been dealt with stay so. -/
theorem resolved_of_moves
    {id : Nat}
    (moved : Moves setting walk after)
    (resolved : walk.registry.state? id = some .resolved) :
    after.registry.state? id = some .resolved := by
  cases moved with
  | leave frame frames top finished =>
      change (walk.registry.markResolved frame.module).state? id = _
      rw [Registry.state?_markResolved, resolved]
      split <;> rfl
  | enter frame frames dependency remaining remarks module top ahead unknown loaded =>
      rw [← Setting.path_of_load loaded] at unknown
      exact Registry.state?_register unknown resolved
  | park | serve => exact resolved

theorem module?_push
    (walk : Walk)
    (module : Module)
    (remarks : List Remark)
    (request : Request)
    (number : module.id = walk.registry.modules.length) :
    (walk.push module remarks request).registry.module? module.id = some module := by
  have kept : (walk.registry.register module.path).1.modules = walk.registry.modules := by
    unfold Registry.register
    split <;> rfl
  simp [push, Registry.attach, Registry.module?, kept, number]

/-- A frame is that of the module that has just been loaded, or it was there before with no fewer
imports to follow. -/
theorem frame_of_moves
    (sound : walk.Sound)
    (moved : Moves setting walk after)
    {frame : Frame}
    (onStack : frame ∈ after.frames) :
    (∃ earlier ∈ walk.frames,
        frame.module = earlier.module ∧ frame.remaining <:+ earlier.remaining) ∨
      ∃ module,
        after.registry.module? frame.module = some module ∧
          frame.remaining = module.dependencies := by
  cases moved with
  | leave top frames isTop finished =>
      exact Or.inl ⟨frame, isTop ▸ List.mem_cons_of_mem _ onStack, rfl, List.suffix_rfl⟩
  | enter top frames dependency remaining remarks module isTop ahead unknown loaded =>
      rcases List.mem_cons.mp onStack with rfl | before
      · have number := (Setting.id_of_load loaded).trans sound.length_eq
        exact Or.inr ⟨module, module?_push _ module remarks dependency.request number, rfl⟩
      · rcases List.mem_cons.mp before with rfl | below
        · exact Or.inl ⟨top, isTop ▸ List.mem_cons_self, rfl, ahead ▸ List.suffix_cons _ _⟩
        · exact Or.inl ⟨frame, isTop ▸ List.mem_cons_of_mem _ below, rfl, List.suffix_rfl⟩
  | park top frames dependency remaining id isTop ahead known waiting =>
      obtain ⟨unparked, before, rfl⟩ := List.mem_map.mp onStack
      have sameModule := Frame.module_park id dependency.request unparked
      have sameRemaining := Frame.remaining_park id dependency.request unparked
      rw [sameModule, sameRemaining]
      rcases List.mem_cons.mp before with rfl | below
      · exact Or.inl ⟨top, isTop ▸ List.mem_cons_self, rfl, ahead ▸ List.suffix_cons _ _⟩
      · exact Or.inl ⟨unparked, isTop ▸ List.mem_cons_of_mem _ below, rfl, List.suffix_rfl⟩
  | serve top frames dependency remaining id isTop ahead known settled =>
      rcases List.mem_cons.mp onStack with rfl | below
      · exact Or.inl ⟨top, isTop ▸ List.mem_cons_self, rfl, ahead ▸ List.suffix_cons _ _⟩
      · exact Or.inl ⟨frame, isTop ▸ List.mem_cons_of_mem _ below, rfl, List.suffix_rfl⟩

/-- A file is served when it has been dealt with. -/
theorem resolved_of_served
    (sound : walk.Sound)
    (moved : Moves setting walk after)
    {id : Nat}
    {request : Request}
    (served : .serve id request ∈ after.events) :
    .serve id request ∈ walk.events ∨ after.registry.state? id = some .resolved := by
  cases moved with
  | leave frame frames top finished =>
      rcases List.mem_append.mp served with before | now
      · exact Or.inl before
      · have same : frame.module = id := by
          obtain ⟨_, _, event⟩ := List.mem_map.mp now
          exact (Event.serve.inj event).1
        have underWay : walk.registry.state? frame.module = some .inProgress :=
          (sound.mem_stack_iff frame.module).mp (by simp [top])
        right
        change (walk.registry.markResolved frame.module).state? id = _
        rw [Registry.state?_markResolved, if_pos same, ← same, underWay]
        rfl
  | enter frame frames dependency remaining remarks module top ahead unknown loaded =>
      rcases List.mem_append.mp served with before | now
      · exact Or.inl before
      · simp at now
  | park frame frames dependency remaining other top ahead known waiting => exact Or.inl served
  | serve frame frames dependency remaining other top ahead known settled =>
      rcases List.mem_append.mp served with before | now
      · exact Or.inl before
      · have same : id = other := (Event.serve.inj (List.mem_singleton.mp now)).1
        right
        rw [same]
        exact Registry.state?_eq_resolved (Registry.lt_length_of_lookup known) settled

theorem tidy_start
    {main : Location}
    {remarks : List Remark}
    {module : Module}
    (loaded : setting.load 0 main true = (remarks, .ok module)) :
    ((Walk.empty setting).push module remarks .main).Tidy where
  sound := sound_start loaded
  frame_module := by
    intro frame onStack
    obtain rfl := List.mem_singleton.mp onStack
    have number : module.id = (Walk.empty setting).registry.modules.length :=
      Setting.id_of_load loaded
    exact ⟨module, module?_push _ module remarks .main number, List.suffix_rfl⟩
  served_resolved := by
    intro id request served
    simp [push, Walk.empty] at served

/-- Every move keeps a walk tidy. -/
theorem tidy_of_moves
    (tidy : walk.Tidy)
    (moved : Moves setting walk after) :
    after.Tidy where
  sound := sound_of_moves tidy.sound moved
  frame_module := by
    intro frame onStack
    rcases frame_of_moves tidy.sound moved onStack with
      ⟨earlier, before, sameModule, fewer⟩ | ⟨module, found, all⟩
    · obtain ⟨module, found, rest⟩ := tidy.frame_module earlier before
      exact ⟨module, sameModule ▸ module?_of_moves moved found, fewer.trans rest⟩
    · exact ⟨module, found, all ▸ List.suffix_rfl⟩
  served_resolved := by
    intro id request served
    rcases resolved_of_served tidy.sound moved served with before | resolved
    · exact resolved_of_moves moved (tidy.served_resolved id request before)
    · exact resolved

/-! ## From a step to every walk on the way -/

theorem tidy_of_steps
    (tidy : walk.Tidy)
    (onward : Relation.ReflTransGen (Steps setting) walk later) :
    later.Tidy := by
  induction onward with
  | refl => exact tidy
  | tail _ stepped inductionHypothesis =>
      exact tidy_of_moves inductionHypothesis (moves_of_step stepped)

theorem resolved_of_steps
    {id : Nat}
    (onward : Relation.ReflTransGen (Steps setting) walk later)
    (resolved : walk.registry.state? id = some .resolved) :
    later.registry.state? id = some .resolved := by
  induction onward with
  | refl => exact resolved
  | tail _ stepped inductionHypothesis =>
      exact resolved_of_moves (moves_of_step stepped) inductionHypothesis

/-- How the parts of a walk fit together.  Each loaded module has its number, its state and its own
path, under which the index has its number; those on the stack are under way, each once, and all
others have been dealt with.  So the next module gets the next number, every number in use is that
of a module, and a file under way is found on the stack. -/
structure Consistent (setting : Setting) (walk : Walk) : Prop where
  length_states : walk.registry.states.length = walk.registry.modules.length
  index_eq : walk.registry.index =
    walk.registry.modules.map fun module => (module.path.components, module.id)
  keys_nodup : walk.registry.keys.Nodup
  id_of_module : ∀ id module, walk.registry.module? id = some module → module.id = id
  lookup_iff : ∀ id module, walk.registry.module? id = some module → ∀ path,
    walk.registry.lookup path = some id ↔ path.components = module.path.components
  stack_nodup : (walk.frames.map (·.module)).Nodup
  mem_stack_iff : ∀ id,
    id ∈ walk.frames.map (·.module) ↔ walk.registry.state? id = some .inProgress
  resolved_iff : ∀ id,
    walk.registry.state? id = some .resolved ↔
      id < walk.registry.modules.length ∧ id ∉ walk.frames.map (·.module)
  frame_module : ∀ frame ∈ walk.frames,
    ∃ module,
      walk.registry.module? frame.module = some module ∧
        frame.remaining <:+ module.dependencies
  lookup_inRange : ∀ path id, walk.registry.lookup path = some id →
    id < walk.registry.states.length ∧ id < walk.registry.modules.length
  served_inRange : ∀ id request, .serve id request ∈ walk.events →
    id < walk.registry.states.length ∧ id < walk.registry.modules.length
  frame_found : ∀ id, walk.registry.state? id = some .inProgress →
    ∃ frame, walk.frames.find? (·.module == id) = some frame
  next_number : ∀ location remarks module,
    walk.loading? = some location →
      setting.load (walk.registry.register location.path).2 location false =
          (remarks, .ok module) →
        module.id = (walk.registry.register location.path).1.modules.length

theorem Tidy.consistent
    (tidy : walk.Tidy)
    (setting : Setting) :
    walk.Consistent setting := by
  have sound := tidy.sound
  have lengths := sound.length_eq
  refine ⟨lengths, sound.index_eq, sound.keys_nodup, fun _ _ => sound.id_of_module?,
    fun _ _ found _ => sound.lookup_eq_some_iff found, sound.stack_nodup, sound.mem_stack_iff,
    ?_, tidy.frame_module, ?_, ?_, ?_, ?_⟩
  · intro id
    rw [sound.mem_stack_iff]
    constructor
    · intro resolved
      have inRange := Registry.lt_length_of_state? resolved
      exact ⟨lengths ▸ inRange, by simp [resolved]⟩
    · rintro ⟨inRange, settled⟩
      exact Registry.state?_eq_resolved (lengths ▸ inRange) settled
  · intro path id found
    have inRange := Registry.lt_length_of_lookup found
    exact ⟨inRange, lengths ▸ inRange⟩
  · intro id request served
    have inRange := Registry.lt_length_of_state? (tidy.served_resolved id request served)
    exact ⟨inRange, lengths ▸ inRange⟩
  · intro id underWay
    obtain ⟨frame, onStack, same⟩ := List.mem_map.mp ((sound.mem_stack_iff id).mpr underWay)
    rw [← Option.isSome_iff_exists, List.find?_isSome]
    exact ⟨frame, onStack, by simpa using same⟩
  · intro location remarks module loads loaded
    have registered := Registry.register_of_lookup_eq_none (lookup_of_loading? loads)
    rw [registered] at loaded ⊢
    exact (Setting.id_of_load loaded).trans lengths

end Walk

/-! ## The walks of a merge -/

/-- Every walk that a merge comes to is consistent, and files that have been dealt with stay so.
A step looks into no file, unless it is the one that it loads, and no file is loaded twice. -/
theorem walks_stay_consistent
    {setting : Setting}
    {main : Location}
    {start : Walk}
    (starts : setting.start? main = some start) :
    (∀ walk,
      Relation.ReflTransGen (Walk.Steps setting) start walk →
        walk.Consistent setting ∧
          (∀ later,
            Relation.ReflTransGen (Walk.Steps setting) walk later →
              ∀ id,
                walk.registry.state? id = some .resolved →
                  later.registry.state? id = some .resolved) ∧
          (walk.loading? = none → ∀ other, walk.step setting = walk.step other)) ∧
      ((main :: start.loads setting).map (·.path.components)).Nodup := by
  obtain ⟨remarks, module, loaded, _, rfl⟩ := Setting.exists_load_of_start? starts
  refine ⟨?_, ?_⟩
  · intro walk reached
    have tidy := Walk.tidy_of_steps (Walk.tidy_start loaded) reached
    refine ⟨tidy.consistent setting, ?_, ?_⟩
    · intro later onward id
      exact Walk.resolved_of_steps onward
    · intro loadsNone other
      exact Walk.step_eq_of_loading?_eq_none setting other loadsNone
  · obtain ⟨nodup, fresh⟩ :=
      Walk.nodup_loads setting ((Walk.empty setting).push module remarks .main)
    have mainKey :
        ((Walk.empty setting).push module remarks .main).registry.keys =
          [main.path.components] := by
      rw [← Setting.path_of_load loaded]
      rfl
    rw [List.map_cons, List.nodup_cons]
    refine ⟨?_, nodup⟩
    intro again
    obtain ⟨location, member, same⟩ := List.mem_map.mp again
    apply fresh location member
    rw [mainKey, same]
    exact List.mem_singleton_self _

theorem walks_stay_consistent_knottedTree :
    ∃ start walk later,
      knottedSetting.start? (knottedTree.normalize (.ofString "main.py")) = some start ∧
        Relation.ReflTransGen (Walk.Steps knottedSetting) start walk ∧
        Relation.ReflTransGen (Walk.Steps knottedSetting) walk later ∧
        walk.Consistent knottedSetting ∧
        walk.frames.map (·.module) = [1, 0] ∧
        walk.registry.state? 2 = some .resolved ∧
        later.frames.map (·.module) = [0] ∧
        later.registry.state? 2 = some .resolved := by
  have facts :
      ∃ start first second third fourth walk later,
        knottedSetting.start? (knottedTree.normalize (.ofString "main.py")) = some start ∧
          start.step knottedSetting = .next first ∧
          first.step knottedSetting = .next second ∧
          second.step knottedSetting = .next third ∧
          third.step knottedSetting = .next fourth ∧
          fourth.step knottedSetting = .next walk ∧
          walk.step knottedSetting = .next later ∧
          walk.frames.map (·.module) = [1, 0] ∧
          walk.registry.state? 2 = some .resolved ∧
          later.frames.map (·.module) = [0] := by
    let advance (walk : Walk) : Walk :=
      match walk.step knottedSetting with
      | .next after => after
      | .done | .failed _ _ => walk
    let start :=
      (knottedSetting.start? (knottedTree.normalize (.ofString "main.py"))).getD
        (Walk.empty knottedSetting)
    refine ⟨start, advance^[1] start, advance^[2] start, advance^[3] start, advance^[4] start,
      advance^[5] start, advance^[6] start, ?_⟩
    decide +kernel
  obtain ⟨start, first, second, third, fourth, walk, later, starts, step₁, step₂, step₃, step₄,
    step₅, step₆, stack, resolved, laterStack⟩ := facts
  have reached : Relation.ReflTransGen (Walk.Steps knottedSetting) start walk :=
    .tail (.tail (.tail (.tail (.tail .refl step₁) step₂) step₃) step₄) step₅
  have onward : Relation.ReflTransGen (Walk.Steps knottedSetting) walk later :=
    .tail .refl step₆
  obtain ⟨everyWalk, _⟩ := walks_stay_consistent starts
  obtain ⟨consistent, stays, _⟩ := everyWalk walk reached
  exact ⟨start, walk, later, starts, reached, onward, consistent, stack, resolved, laterStack,
    stays later onward 2 resolved⟩

end Inliner
