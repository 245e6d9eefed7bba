import Inliner.Merge.Outcome
import Mathlib.Data.List.Nodup

/-!
# What every walk keeps

A walk numbers files as it meets them, loads the module of each, and keeps the files whose
imports are being followed on a stack.  `Walk.Sound` says how these fit together, and
`Walk.Moves` lists what a single step can do.  Every invariant of a walk is derived from these
moves and carried to the end of the run by `Walk.run_outcome`.
-/

namespace Inliner

/-! ## Numbers of files -/

namespace Registry

/-- The components of the files that have been met, in the order of their numbers. -/
def keys (registry : Registry) : List (List Component) :=
  registry.index.map (·.1)

@[simp]
theorem length_keys (registry : Registry) :
    registry.keys.length = registry.states.length := by
  have numbers := congrArg List.length registry.numbers_index
  simpa [keys] using numbers

@[simp]
theorem keys_attach (registry : Registry) (module : Module) :
    (registry.attach module).keys = registry.keys :=
  rfl

@[simp]
theorem keys_markResolved (registry : Registry) (id : Nat) :
    (registry.markResolved id).keys = registry.keys :=
  rfl

/-- The number of the file with these components. -/
def numberOf? (registry : Registry) (key : List Component) : Option Nat :=
  registry.keys.findIdx? (· == key)

/-- Where the values are numbers in order, a key is found under its place in the list. -/
theorem lookup_eq_findIdx?
    {index : List (List Component × Nat)}
    {start : Nat}
    (numbers : index.map (·.2) = List.range' start index.length)
    (key : List Component) :
    index.lookup key = ((index.map (·.1)).findIdx? (· == key)).map (start + ·) := by
  induction index generalizing start with
  | nil => rfl
  | cons entry index inductionHypothesis =>
      obtain ⟨other, number⟩ := entry
      rw [List.map_cons, List.length_cons, List.range'_succ, List.cons.injEq] at numbers
      obtain ⟨rfl, later⟩ := numbers
      rw [List.lookup_cons, List.map_cons, List.findIdx?_cons, inductionHypothesis later]
      by_cases same : other = key
      · subst same
        simp
      · have different : (key == other) = false := beq_eq_false_iff_ne.mpr (Ne.symm same)
        simp [different, same, Function.comp_def, Nat.add_assoc, Nat.add_comm 1]

theorem lookup_eq_numberOf? (registry : Registry) (path : Path) :
    registry.lookup path = registry.numberOf? path.components := by
  have counted : registry.index.length = registry.states.length := by
    simpa [keys] using registry.length_keys
  have numbers : registry.index.map (·.2) = List.range' 0 registry.index.length := by
    rw [registry.numbers_index, counted, List.range_eq_range']
  rw [lookup, lookup_eq_findIdx? numbers]
  simp [numberOf?, keys]

theorem lookup_eq_none_iff {registry : Registry} {path : Path} :
    registry.lookup path = none ↔ path.components ∉ registry.keys := by
  rw [lookup_eq_numberOf?, numberOf?, List.findIdx?_eq_none_iff]
  constructor
  · intro absent member
    simpa using absent path.components member
  · intro absent key member
    rw [beq_eq_false_iff_ne]
    intro equal
    exact absent (equal ▸ member)

theorem getElem?_keys_of_numberOf?
    {registry : Registry} {key : List Component} {id : Nat}
    (found : registry.numberOf? key = some id) :
    registry.keys[id]? = some key := by
  rw [numberOf?, List.findIdx?_eq_some_iff_getElem] at found
  obtain ⟨inRange, same, _⟩ := found
  exact List.getElem?_eq_some_iff.mpr ⟨inRange, eq_of_beq same⟩

theorem getElem?_keys_of_lookup
    {registry : Registry} {path : Path} {id : Nat}
    (found : registry.lookup path = some id) :
    registry.keys[id]? = some path.components := by
  rw [lookup_eq_numberOf?] at found
  exact getElem?_keys_of_numberOf? found

/-- Where no two files share their components, each file is found under its own number. -/
theorem numberOf?_of_getElem?_keys
    {registry : Registry} {key : List Component} {id : Nat}
    (distinct : registry.keys.Nodup)
    (given : registry.keys[id]? = some key) :
    registry.numberOf? key = some id := by
  cases found : registry.numberOf? key with
  | none =>
      rw [numberOf?, List.findIdx?_eq_none_iff] at found
      simpa using found key (List.mem_of_getElem? given)
  | some other =>
      have otherGiven := getElem?_keys_of_numberOf? found
      obtain ⟨otherInRange, _⟩ := List.getElem?_eq_some_iff.mp otherGiven
      exact congrArg some <|
        (List.getElem?_inj otherInRange distinct).mp (otherGiven.trans given.symm)

@[simp]
theorem keys_add (registry : Registry) (path : Path) :
    (registry.add path).keys = registry.keys ++ [path.components] := by
  simp [keys, add]

@[simp]
theorem states_add (registry : Registry) (path : Path) :
    (registry.add path).states = registry.states ++ [.inProgress] :=
  rfl

@[simp]
theorem modules_add (registry : Registry) (path : Path) :
    (registry.add path).modules = registry.modules :=
  rfl

theorem register_of_lookup_eq_none
    {registry : Registry} {path : Path}
    (unknown : registry.lookup path = none) :
    registry.register path = (registry.add path, registry.states.length) := by
  unfold register
  rw [unknown]

theorem state?_markResolved (registry : Registry) (id other : Nat) :
    (registry.markResolved id).state? other =
      if id = other then (registry.state? other).map fun _ => .resolved
      else registry.state? other := by
  unfold state? markResolved
  rw [List.getElem?_set]
  by_cases same : id = other
  · subst other
    by_cases inRange : id < registry.states.length <;> simp [inRange]
  · simp [same]

/-- A file that has a state has been met. -/
theorem lt_length_of_state?
    {registry : Registry} {id : Nat} {state : FileState}
    (known : registry.state? id = some state) :
    id < registry.states.length :=
  (List.getElem?_eq_some_iff.mp known).1

/-- How files, modules and the stack of files under way fit together: every file that has been
met has its module at its number, no file is met twice, and the files under way are exactly
those on the stack, each once. -/
structure Tracks (registry : Registry) (stack : List Nat) : Prop where
  keys_eq : registry.keys = registry.modules.map (·.path.components)
  keys_nodup : registry.keys.Nodup
  ids_eq : registry.modules.map (·.id) = List.range registry.modules.length
  stack_nodup : stack.Nodup
  mem_stack_iff : ∀ id, id ∈ stack ↔ registry.state? id = some .inProgress

namespace Tracks

variable {registry : Registry} {stack : List Nat}

theorem length_eq (tracks : registry.Tracks stack) :
    registry.states.length = registry.modules.length := by
  have lengths := congrArg List.length tracks.keys_eq
  simpa using lengths

/-- The module of a number carries that number. -/
theorem id_of_module?
    (tracks : registry.Tracks stack) {id : Nat} {module : Module}
    (found : registry.module? id = some module) :
    module.id = id := by
  obtain ⟨inRange, moduleAt⟩ := List.getElem?_eq_some_iff.mp found
  have mapped : (registry.modules.map (·.id))[id]? = some module.id := by
    rw [List.getElem?_map]
    exact congrArg (Option.map (·.id)) found
  rw [tracks.ids_eq, List.getElem?_range inRange] at mapped
  exact (Option.some.inj mapped).symm

/-- Leaving the latest file takes it off the stack and out of the files under way. -/
theorem leave {id : Nat} (tracks : registry.Tracks (id :: stack)) :
    (registry.markResolved id).Tracks stack where
  keys_eq := by
    rw [keys_markResolved]
    exact tracks.keys_eq
  keys_nodup := by
    rw [keys_markResolved]
    exact tracks.keys_nodup
  ids_eq := tracks.ids_eq
  stack_nodup := (List.nodup_cons.mp tracks.stack_nodup).2
  mem_stack_iff := by
    intro other
    rw [state?_markResolved]
    by_cases same : id = other
    · subst other
      have notBelow : id ∉ stack := (List.nodup_cons.mp tracks.stack_nodup).1
      simp [notBelow]
    · rw [if_neg same, ← tracks.mem_stack_iff, List.mem_cons]
      simp [Ne.symm same]

/-- Meeting a file puts it on the stack and among the files under way. -/
theorem enter
    (tracks : registry.Tracks stack) {module : Module}
    (unknown : registry.lookup module.path = none)
    (number : module.id = registry.states.length) :
    ((registry.register module.path).1.attach module).Tracks (module.id :: stack) := by
  rw [register_of_lookup_eq_none unknown]
  have absent := lookup_eq_none_iff.mp unknown
  have states :
      ∀ other,
        ((registry.add module.path).attach module).state? other =
          if other = module.id then some .inProgress else registry.state? other := by
    intro other
    simp only [state?, attach, states_add, number]
    rcases Nat.lt_trichotomy other registry.states.length with below | same | above
    · rw [List.getElem?_append_left below, if_neg (Nat.ne_of_lt below)]
    · subst same
      simp
    · have outside : registry.states.length + 1 ≤ other := above
      rw [if_neg (Nat.ne_of_gt above), List.getElem?_eq_none (by simpa using outside),
        List.getElem?_eq_none (Nat.le_of_lt above)]
  refine ⟨?_, ?_, ?_, ?_, ?_⟩
  · rw [keys_attach, keys_add, tracks.keys_eq, attach, modules_add, List.map_append]
    rfl
  · rw [keys_attach, keys_add]
    refine List.Nodup.append tracks.keys_nodup (List.nodup_singleton _) ?_
    intro key known fresh
    rw [List.mem_singleton] at fresh
    exact absent (fresh ▸ known)
  · simp only [attach, modules_add, List.map_append, List.map_cons, List.map_nil,
      List.length_append, List.length_cons, List.length_nil, tracks.ids_eq, number,
      tracks.length_eq, List.range_succ, Nat.zero_add]
  · refine List.nodup_cons.mpr ⟨?_, tracks.stack_nodup⟩
    intro member
    have underWay := (tracks.mem_stack_iff module.id).mp member
    exact absurd (lt_length_of_state? underWay) (by omega)
  · intro other
    rw [states, List.mem_cons, tracks.mem_stack_iff]
    by_cases same : other = module.id <;> simp [same]

end Tracks

end Registry

/-! ## What a step can do -/

theorem ParsedSource.text_of_parse
    {text : Text} {source : ParsedSource}
    (analysed : ParsedSource.parse text = .ok source) :
    source.text = text := by
  unfold parse at analysed
  split at analysed
  · simp only [Except.ok.injEq] at analysed
    rw [← analysed]
    rfl
  · simp at analysed

/-- What the file at a location consists of, if it can be read and does not break the grammar. -/
def FileTree.parsedAt? (tree : FileTree) (location : Location) : Option ParsedSource :=
  match tree.readAt location with
  | .ok text => (ParsedSource.parse text).toOption
  | .error _ => none

theorem FileTree.parse_of_parsedAt?
    {tree : FileTree}
    {location : Location}
    {text : Text}
    {source : ParsedSource}
    (readable : tree.readAt location = .ok text)
    (found : tree.parsedAt? location = some source) :
    ParsedSource.parse text = .ok source := by
  simp only [parsedAt?, readable] at found
  cases result : ParsedSource.parse text with
  | error error =>
      rw [result] at found
      cases found
  | ok other =>
      rw [result] at found
      exact congrArg Except.ok (Option.some.inj found)

theorem FileTree.parsedAt?_of_parse
    {tree : FileTree}
    {location : Location}
    {text : Text}
    {source : ParsedSource}
    (readable : tree.readAt location = .ok text)
    (analysed : ParsedSource.parse text = .ok source) :
    tree.parsedAt? location = some source := by
  rw [parsedAt?, readable]
  exact congrArg Except.toOption analysed

theorem FileTree.exists_parse_of_parsedAt?
    {tree : FileTree}
    {location : Location}
    {source : ParsedSource}
    (found : tree.parsedAt? location = some source) :
    ∃ text, ParsedSource.parse text = .ok source := by
  cases readable : tree.readAt location with
  | error error =>
      rw [parsedAt?, readable] at found
      cases found
  | ok text => exact ⟨text, parse_of_parsedAt? readable found⟩

namespace Setting

/-- The module of an analysed file whose imports amount to these dependencies. -/
def plannedModule
    (setting : Setting) (id : Nat) (location : Location) (isMain : Bool)
    (source : ParsedSource) (imports : List (ImportDeclaration × Option Dependency)) :
    Module where
  id := id
  path := location.path
  text := source.text
  parsed := some source
  dependencies := imports.filterMap (·.2)
  edits := importEdits imports ++ setting.config.statementEdits isMain source
  futures := setting.config.futures source
  isMain := isMain

/-- How a file is loaded: it is analysed and all its imports are settled, or it breaks the grammar
and may do so. -/
inductive Loads (setting : Setting) (id : Nat) (location : Location) (isMain : Bool) :
    List Remark → Module → Prop
  | analysed {text : Text} {source : ParsedSource} {remarks : List Remark}
      {imports : List (ImportDeclaration × Option Dependency)} :
      setting.tree.readAt location = .ok text →
      ParsedSource.parse text = .ok source →
      setting.dependencies location (setting.isLenient location) source.imports =
        (remarks, .ok imports) →
      Loads setting id location isMain remarks
        (setting.plannedModule id location isMain source imports)
  | verbatim {text : Text} {error : SyntaxError} {remarks : List Remark} :
      setting.tree.readAt location = .ok text →
      ParsedSource.parse text = .error error →
      setting.isLenient location = true →
      Loads setting id location isMain remarks (verbatimModule id location isMain text)

section Loaded

variable {setting : Setting} {id : Nat} {location : Location} {isMain : Bool}
variable {remarks : List Remark} {module : Module}

theorem loads_of_load
    (loaded : setting.load id location isMain = (remarks, .ok module)) :
    setting.Loads id location isMain remarks module := by
  unfold load at loaded
  split at loaded
  next => simp at loaded
  next =>
    split at loaded
    next => simp at loaded
    next text readable =>
      split at loaded
      next source analysed =>
        unfold plan at loaded
        split at loaded
        next => simp at loaded
        next planRemarks imports settled =>
          simp only [Prod.mk.injEq, Except.ok.injEq] at loaded
          obtain ⟨rfl, rfl⟩ := loaded
          exact Loads.analysed readable analysed settled
      next error broken =>
        split at loaded
        next lenient =>
          simp only [Prod.mk.injEq, Except.ok.injEq] at loaded
          obtain ⟨rfl, rfl⟩ := loaded
          exact Loads.verbatim readable broken lenient
        next => simp at loaded

/-- A loaded module has the number under which it is loaded. -/
theorem id_of_load
    (loaded : setting.load id location isMain = (remarks, .ok module)) :
    module.id = id := by
  cases loads_of_load loaded <;> rfl

/-- A loaded module knows whether it is the main file. -/
theorem isMain_of_load
    (loaded : setting.load id location isMain = (remarks, .ok module)) :
    module.isMain = isMain := by
  cases loads_of_load loaded <;> rfl

/-- A loaded module has the text of its file. -/
theorem text_of_load
    (loaded : setting.load id location isMain = (remarks, .ok module)) :
    setting.tree.readAt location = .ok module.text := by
  cases loads_of_load loaded with
  | analysed readable analysed settled =>
      rw [readable]
      exact congrArg Except.ok (ParsedSource.text_of_parse analysed).symm
  | verbatim readable broken lenient => exact readable

/-- A loaded module consists of what its file consists of. -/
theorem parsed_of_load
    (loaded : setting.load id location isMain = (remarks, .ok module)) :
    module.parsed = setting.tree.parsedAt? location := by
  cases loads_of_load loaded with
  | analysed readable analysed settled =>
      simp only [FileTree.parsedAt?, readable, analysed]
      rfl
  | verbatim readable broken lenient =>
      simp only [FileTree.parsedAt?, readable, broken]
      rfl

/-- A loaded module that could be analysed consists of what its text is analysed into. -/
theorem parse_of_load
    {source : ParsedSource}
    (loaded : setting.load id location isMain = (remarks, .ok module))
    (parsed : module.parsed = some source) :
    ParsedSource.parse module.text = .ok source := by
  rw [parsed_of_load loaded] at parsed
  exact FileTree.parse_of_parsedAt? (text_of_load loaded) parsed

end Loaded

end Setting

namespace Frame

theorem module_park (id : Nat) (request : Request) (frame : Frame) :
    (park id request frame).module = frame.module := by
  unfold park
  split <;> rfl

theorem remaining_park (id : Nat) (request : Request) (frame : Frame) :
    (park id request frame).remaining = frame.remaining := by
  unfold park
  split <;> rfl

end Frame

namespace Walk

/-- A walk whose latest file has one import less to follow. -/
def onward
    (walk : Walk) (frame : Frame) (remaining : List Dependency)
    (frames : List Frame) : Walk :=
  { walk with frames := { frame with remaining := remaining } :: frames }

/-- What a step that goes on can do: leave the latest file, load the file of its next import, let
the request of that import wait for a file under way, or serve it at once. -/
inductive Moves (setting : Setting) (walk : Walk) : Walk → Prop
  | leave (frame : Frame) (frames : List Frame) :
      walk.frames = frame :: frames →
      frame.remaining = [] →
      Moves setting walk ({ walk with frames := frames }.leave frame)
  | enter (frame : Frame) (frames : List Frame)
      (dependency : Dependency) (remaining : List Dependency)
      (remarks : List Remark) (module : Module) :
      walk.frames = frame :: frames →
      frame.remaining = dependency :: remaining →
      walk.registry.lookup dependency.target.path = none →
      setting.load walk.registry.states.length dependency.target false =
        (remarks, .ok module) →
      Moves setting walk
        ((walk.onward frame remaining frames).push module remarks dependency.request)
  | park (frame : Frame) (frames : List Frame)
      (dependency : Dependency) (remaining : List Dependency) (id : Nat) :
      walk.frames = frame :: frames →
      frame.remaining = dependency :: remaining →
      walk.registry.lookup dependency.target.path = some id →
      walk.registry.state? id = some .inProgress →
      Moves setting walk
        { walk.onward frame remaining frames with
          frames :=
            (walk.onward frame remaining frames).frames.map
              (Frame.park id dependency.request) }
  | serve (frame : Frame) (frames : List Frame)
      (dependency : Dependency) (remaining : List Dependency) (id : Nat) :
      walk.frames = frame :: frames →
      frame.remaining = dependency :: remaining →
      walk.registry.lookup dependency.target.path = some id →
      walk.registry.state? id ≠ some .inProgress →
      Moves setting walk
        { walk.onward frame remaining frames with
          events := walk.events ++ [.serve id dependency.request] }

/-- Why a walk cannot go on: the file of the next import cannot be loaded. -/
def Stuck
    (setting : Setting) (walk : Walk) (remarks : List Remark) (error : MergeError) : Prop :=
  ∃ frame frames dependency remaining,
    walk.frames = frame :: frames ∧
    frame.remaining = dependency :: remaining ∧
    walk.registry.lookup dependency.target.path = none ∧
    setting.load walk.registry.states.length dependency.target false =
      (remarks, .error error)

/-- What a step tells about the walk that it is taken on. -/
def Explains (setting : Setting) (walk : Walk) : Progress → Prop
  | .done => walk.frames = []
  | .next after => Moves setting walk after
  | .failed remarks error => walk.Stuck setting remarks error

theorem explains_enter
    {setting : Setting} {walk : Walk} {frame : Frame} {frames : List Frame}
    {dependency : Dependency} {remaining : List Dependency}
    (top : walk.frames = frame :: frames)
    (ahead : frame.remaining = dependency :: remaining)
    (unknown : walk.registry.lookup dependency.target.path = none) :
    Explains setting walk
      ((walk.onward frame remaining frames).enter setting
        dependency.target dependency.request) := by
  have sameNumber :
      ((walk.onward frame remaining frames).registry.register
        dependency.target.path).2 = walk.registry.states.length := by
    simp only [onward, Registry.register_of_lookup_eq_none unknown]
  unfold enter
  rw [sameNumber]
  split
  next remarks error loaded =>
    exact ⟨frame, frames, dependency, remaining, top, ahead, unknown, loaded⟩
  next remarks module loaded =>
    exact Moves.enter frame frames dependency remaining remarks module
      top ahead unknown loaded

theorem explains_ask
    {setting : Setting} {walk : Walk} {frame : Frame} {frames : List Frame}
    {dependency : Dependency} {remaining : List Dependency} {id : Nat}
    (top : walk.frames = frame :: frames)
    (ahead : frame.remaining = dependency :: remaining)
    (known : walk.registry.lookup dependency.target.path = some id) :
    Explains setting walk
      (.next ((walk.onward frame remaining frames).ask id dependency.request)) := by
  by_cases waiting : walk.registry.state? id = some .inProgress
  · have parked : Moves setting walk _ :=
      Moves.park frame frames dependency remaining id top ahead known waiting
    simpa only [Explains, ask, onward, waiting] using parked
  · have served : Moves setting walk _ :=
      Moves.serve frame frames dependency remaining id top ahead known waiting
    unfold ask
    split
    next underWay => exact absurd underWay waiting
    next => exact served
    next => exact served

/-- Every step does what the walk calls for. -/
theorem explains_step (setting : Setting) (walk : Walk) :
    Explains setting walk (walk.step setting) := by
  unfold step
  split
  next empty => exact empty
  next frame frames top =>
    split
    next finished => exact Moves.leave frame frames top finished
    next dependency remaining ahead =>
      dsimp only
      split
      next unknown => exact explains_enter top ahead unknown
      next id known => exact explains_ask top ahead known

/-! ## Soundness of a walk -/

/-- The files that a walk has met fit the stack of its frames. -/
def Sound (walk : Walk) : Prop :=
  walk.registry.Tracks (walk.frames.map (·.module))

/-- Waiting requests leave the files on the way as they are. -/
theorem modules_park (id : Nat) (request : Request) (frames : List Frame) :
    (frames.map (Frame.park id request)).map (·.module) = frames.map (·.module) := by
  rw [List.map_map]
  apply List.map_congr_left
  intro frame _
  exact Frame.module_park id request frame

theorem sound_push
    {walk : Walk} {module : Module} (remarks : List Remark) (request : Request)
    (sound : walk.Sound)
    (unknown : walk.registry.lookup module.path = none)
    (number : module.id = walk.registry.states.length) :
    (walk.push module remarks request).Sound := by
  have entered := Registry.Tracks.enter sound unknown number
  simpa only [Sound, push, List.map_cons] using entered

/-- The walk that starts at a loaded main file is sound. -/
theorem sound_start
    {setting : Setting} {main : Location} {remarks : List Remark} {module : Module}
    (loaded : setting.load 0 main true = (remarks, .ok module)) :
    ((Walk.empty setting).push module remarks .main).Sound := by
  apply sound_push
  · refine ⟨rfl, List.nodup_nil, rfl, List.nodup_nil, ?_⟩
    intro id
    simp [Walk.empty, Registry.empty, Registry.state?]
  · rfl
  · exact Setting.id_of_load loaded

/-- Every move keeps a walk sound. -/
theorem sound_of_moves
    {setting : Setting} {walk after : Walk}
    (sound : walk.Sound) (moved : Moves setting walk after) :
    after.Sound := by
  cases moved with
  | leave frame frames top finished =>
      unfold Sound at sound
      rw [top, List.map_cons] at sound
      exact Registry.Tracks.leave sound
  | enter frame frames dependency remaining remarks module top ahead unknown loaded =>
      have before : (walk.onward frame remaining frames).Sound := by
        simpa only [Sound, onward, top, List.map_cons] using sound
      have samePath := Setting.path_of_load loaded
      refine sound_push remarks dependency.request before ?_ (Setting.id_of_load loaded)
      rw [samePath]
      exact unknown
  | park frame frames dependency remaining id top ahead known waiting =>
      unfold Sound
      dsimp only
      rw [modules_park]
      simpa only [Sound, onward, top, List.map_cons] using sound
  | serve frame frames dependency remaining id top ahead known settled =>
      simpa only [Sound, onward, top, List.map_cons] using sound

/-- Modules that have been loaded keep their numbers. -/
theorem module?_of_moves
    {setting : Setting}
    {walk after : Walk}
    {id : Nat}
    {module : Module}
    (moved : Moves setting walk after)
    (found : walk.registry.module? id = some module) :
    after.registry.module? id = some module := by
  cases moved with
  | enter frame frames dependency remaining remarks other top ahead unknown loaded =>
      have kept : (walk.registry.register other.path).1.modules = walk.registry.modules := by
        unfold Registry.register
        split <;> rfl
      obtain ⟨inRange, _⟩ := List.getElem?_eq_some_iff.mp found
      simp only [push, onward, Registry.module?, Registry.attach, kept]
      rw [List.getElem?_append_left inRange]
      exact found
  | leave | park | serve => exact found

/-! ## From a step to a run -/

/-- How a run ends, with everything that every move keeps: at a walk with nothing left to do, or
at one whose next file cannot be loaded. -/
theorem run_outcome
    {setting : Setting} {kept : Walk → Prop}
    (keeps : ∀ walk after, kept walk → Moves setting walk after → kept after)
    {walk : Walk} (initial : kept walk) :
    ∃ last, kept last ∧
      ((last.frames = [] ∧ walk.run setting = (last, none)) ∨
        ∃ remarks error,
          last.Stuck setting remarks error ∧
          walk.run setting =
            ({ last with events := last.events ++ remarks.map .remark }, some error)) := by
  induction walk using run.induct setting with
  | case1 walk finished =>
      have explained := explains_step setting walk
      rw [finished] at explained
      refine ⟨walk, initial, Or.inl ⟨explained, ?_⟩⟩
      rw [run]
      split <;> simp_all
  | case2 walk remarks error failed =>
      have explained := explains_step setting walk
      rw [failed] at explained
      refine ⟨walk, initial, Or.inr ⟨remarks, error, explained, ?_⟩⟩
      rw [run]
      split <;> simp_all
  | case3 walk after stepped inductionHypothesis =>
      have explained := explains_step setting walk
      rw [stepped] at explained
      have same : walk.run setting = after.run setting := by
        rw [run]
        split <;> simp_all
      rw [same]
      exact inductionHypothesis (keeps walk after initial explained)

end Walk

/-! ## Walks of a merge -/

namespace Setting

/-- A walk that started at an analysed main file and came to its end. -/
def Completes (setting : Setting) (main : Location) (walk : Walk) : Prop :=
  ∃ remarks module,
    setting.load 0 main true = (remarks, .ok module) ∧
    module.parsed = setting.tree.parsedAt? main ∧
    module.parsed.isSome ∧
    ((Walk.empty setting).push module remarks .main).run setting = (walk, none)

theorem Completes.exists_parsedAt?
    {setting : Setting} {main : Location} {walk : Walk}
    (completes : setting.Completes main walk) :
    ∃ source, setting.tree.parsedAt? main = some source := by
  obtain ⟨remarks, module, loaded, sameParsed, isParsed, ran⟩ := completes
  rw [sameParsed] at isParsed
  exact Option.isSome_iff_exists.mp isParsed

/-- A main file has one walk that comes to its end. -/
theorem Completes.unique
    {setting : Setting} {main : Location} {walk other : Walk}
    (completes : setting.Completes main walk)
    (otherCompletes : setting.Completes main other) :
    walk = other := by
  obtain ⟨remarks, module, loaded, _, _, ran⟩ := completes
  obtain ⟨otherRemarks, otherModule, otherLoaded, _, _, otherRan⟩ := otherCompletes
  obtain ⟨rfl, sameModule⟩ := Prod.mk.inj (loaded.symm.trans otherLoaded)
  obtain rfl := Except.ok.inj sameModule
  exact (Prod.mk.inj (ran.symm.trans otherRan)).1

/-- What holds at the start of a walk and is kept by every move holds at its end. -/
theorem Completes.kept
    {setting : Setting} {main : Location} {walk : Walk} {kept : Walk → Prop}
    (completes : setting.Completes main walk)
    (start : ∀ remarks module,
      setting.load 0 main true = (remarks, .ok module) →
        kept ((Walk.empty setting).push module remarks .main))
    (keeps : ∀ before after, kept before → Walk.Moves setting before after → kept after) :
    kept walk ∧ walk.frames = [] := by
  obtain ⟨remarks, module, loaded, _, _, ran⟩ := completes
  obtain ⟨last, lastKept, ⟨finished, ended⟩ | ⟨_, _, _, failed⟩⟩ :=
    Walk.run_outcome keeps (start remarks module loaded)
  · rw [ran, Prod.mk.injEq] at ended
    exact ⟨ended.1 ▸ lastKept, ended.1 ▸ finished⟩
  · rw [ran] at failed
    simp at failed

/-- A merge that succeeds for an analysed main file completes a walk, whose output is what the
merge gives. -/
theorem completes_of_mergeAt
    {setting : Setting} {main : Location} {remarks : List Remark} {outcome : Outcome}
    (merged : setting.mergeAt main = (remarks, .ok outcome))
    (analysed : (setting.tree.parsedAt? main).isSome) :
    ∃ walk text,
      setting.Completes main walk ∧
      setting.tree.readAt main = .ok text ∧
      outcome = setting.outcome main text walk := by
  unfold mergeAt at merged
  split at merged
  next => simp at merged
  next loadRemarks module loaded =>
    have sameParsed := parsed_of_load loaded
    have isParsed : module.parsed.isSome := by
      rw [sameParsed]
      exact analysed
    have sameText : setting.tree.readAt main = .ok module.text := text_of_load loaded
    split at merged
    next verbatim =>
      rw [Module.isVerbatim, Option.isNone_iff_eq_none] at verbatim
      rw [verbatim] at isParsed
      simp at isParsed
    next =>
      split at merged
      next => simp at merged
      next walk ran =>
        simp only [Prod.mk.injEq, Except.ok.injEq] at merged
        exact ⟨walk, module.text,
          ⟨loadRemarks, module, loaded, sameParsed, isParsed, ran⟩, sameText, merged.2.symm⟩

end Setting

/-- A merge that succeeds does so under a valid configuration. -/
theorem mergeAt_of_merge
    {config : MergeConfig}
    {tree : FileTree}
    {file : Path}
    {remarks : List Remark}
    {outcome : Outcome}
    (merged : merge config tree file = (remarks, .ok outcome)) :
    config.validate tree = .ok () ∧
      Setting.mergeAt ⟨config, tree⟩ (tree.normalize file) = (remarks, .ok outcome) := by
  unfold merge at merged
  split at merged
  · cases (Prod.mk.inj merged).2
  next valid => exact ⟨valid, merged⟩

end Inliner
