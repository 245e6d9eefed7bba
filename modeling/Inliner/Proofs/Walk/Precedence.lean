import Inliner.Proofs.Walk.Consistency

/-!
# Files are served before their importers

A walk goes down into the files that a file imports before it serves that file.  An import that
leads back to a file on the stack is the exception: its request waits, and the importer is served
first.  The files on the stack import one another from the bottom up, so that this happens only if
the file that is asked leads to the importer itself.
-/

namespace Inliner

/-- A loaded module has a dependency that leads to a file. -/
def Registry.Imports (registry : Registry) (importer imported : Nat) : Prop :=
  ∃ module,
    registry.module? importer = some module ∧
      ∃ dependency ∈ module.dependencies,
        registry.lookup dependency.target.path = some imported

/-- A request is served from a file before any request is served from another one. -/
def ServedBefore
    (events : List Event)
    (id : Nat)
    (request : Request)
    (importer : Nat) : Prop :=
  ∃ earlier later,
    events = earlier ++ later ∧
      .serve id request ∈ earlier ∧
      ∀ other, .serve importer other ∉ earlier

theorem ServedBefore.append
    {events : List Event}
    {id importer : Nat}
    {request : Request}
    (before : ServedBefore events id request importer)
    (more : List Event) :
    ServedBefore (events ++ more) id request importer := by
  obtain ⟨earlier, later, split, served, untouched⟩ := before
  exact ⟨earlier, later ++ more, by rw [split, List.append_assoc], served, untouched⟩

/-- A request waits for a file that stands above another one on the stack. -/
inductive Awaits (id : Nat) (request : Request) (importer : Nat) : List Frame → Prop
  | here (frame : Frame) (frames : List Frame) :
      frame.module = id →
      request ∈ frame.pending →
      importer ∈ frames.map (·.module) →
      Awaits id request importer (frame :: frames)
  | deeper (frame : Frame) (frames : List Frame) :
      Awaits id request importer frames →
      Awaits id request importer (frame :: frames)

namespace Awaits

variable {id importer : Nat} {request : Request} {frame : Frame} {frames : List Frame}

theorem importer_mem (awaits : Awaits id request importer frames) :
    importer ∈ frames.map (·.module) := by
  induction awaits with
  | here frame frames _ _ onStack => exact List.mem_cons_of_mem _ onStack
  | deeper frame frames _ inductionHypothesis => exact List.mem_cons_of_mem _ inductionHypothesis

theorem onward
    (awaits : Awaits id request importer (frame :: frames))
    (remaining : List Dependency) :
    Awaits id request importer ({ frame with remaining := remaining } :: frames) := by
  cases awaits with
  | here _ _ same waiting onStack => exact here _ _ same waiting onStack
  | deeper _ _ rest => exact deeper _ _ rest

theorem park
    (awaits : Awaits id request importer frames)
    (other : Nat)
    (added : Request) :
    Awaits id request importer (frames.map (Frame.park other added)) := by
  induction awaits with
  | here frame frames same waiting onStack =>
      refine here _ _ ((Frame.module_park other added frame).trans same) ?_ ?_
      · unfold Frame.park
        split
        · exact List.mem_append_left _ waiting
        · exact waiting
      · rw [Walk.modules_park]
        exact onStack
  | deeper frame frames _ inductionHypothesis => exact deeper _ _ inductionHypothesis

end Awaits

namespace Walk

variable {setting : Setting} {walk after : Walk}

/-! ## What a step does to what a walk knows -/

theorem lookup_of_moves
    {path : Path}
    {id : Nat}
    (moved : Moves setting walk after)
    (found : walk.registry.lookup path = some id) :
    after.registry.lookup path = some id := by
  rw [Registry.lookup_eq_numberOf?, Registry.numberOf?] at found ⊢
  rcases registry_of_moves moved with ⟨_, keys, _⟩ | ⟨location, module, _, _, keys, _⟩
  · rw [keys]
    exact found
  · rw [keys, List.findIdx?_append, found]
    rfl

theorem imports_of_moves
    {importer imported : Nat}
    (moved : Moves setting walk after)
    (imports : walk.registry.Imports importer imported) :
    after.registry.Imports importer imported := by
  obtain ⟨module, found, dependency, member, known⟩ := imports
  exact ⟨module, module?_of_moves moved found, dependency, member, lookup_of_moves moved known⟩

theorem reaches_of_moves
    {importer imported : Nat}
    (moved : Moves setting walk after)
    (reaches : Relation.ReflTransGen walk.registry.Imports importer imported) :
    Relation.ReflTransGen after.registry.Imports importer imported :=
  Relation.ReflTransGen.mono (fun _ _ => imports_of_moves moved) _ _ reaches

theorem exists_events_of_moves (moved : Moves setting walk after) :
    ∃ more, after.events = walk.events ++ more := by
  cases moved with
  | leave frame frames top finished => exact ⟨_, rfl⟩
  | enter frame frames dependency remaining remarks module top ahead unknown loaded =>
      exact ⟨_, rfl⟩
  | park frame frames dependency remaining id top ahead known waiting =>
      exact ⟨[], (List.append_nil _).symm⟩
  | serve frame frames dependency remaining id top ahead known settled => exact ⟨_, rfl⟩

/-- A module has been loaded before, or all its imports are still to be followed. -/
theorem module?_before
    {id : Nat}
    {module : Module}
    (sound : walk.Sound)
    (moved : Moves setting walk after)
    (found : after.registry.module? id = some module) :
    walk.registry.module? id = some module ∨
      ∃ frame ∈ after.frames, frame.module = id ∧ frame.remaining = module.dependencies := by
  cases moved with
  | enter frame frames dependency remaining remarks entered top ahead unknown loaded =>
      have number := (Setting.id_of_load loaded).trans sound.length_eq
      have modules :
          ((walk.onward frame remaining frames).push entered remarks
            dependency.request).registry.modules = walk.registry.modules ++ [entered] := by
        rw [← Setting.path_of_load loaded] at unknown
        simp [push, onward, Registry.register_of_lookup_eq_none unknown, Registry.attach]
      rw [Registry.module?, modules, List.getElem?_append] at found
      split at found
      next inRange => exact Or.inl found
      next outside =>
        have isEntered : entered = module := by
          have member := List.mem_of_getElem? found
          exact (List.mem_singleton.mp member).symm
        have isLast : id = walk.registry.modules.length := by
          have inRange := (List.getElem?_eq_some_iff.mp found).1
          rw [List.length_singleton] at inRange
          omega
        refine Or.inr ⟨_, List.mem_cons_self, ?_, ?_⟩
        · exact number.trans isLast.symm
        · exact congrArg Module.dependencies isEntered
  | leave | park | serve => exact Or.inl found

/-! ## What becomes of an import -/

/-- What has become of a dependency of a loaded module: it is still to be followed, it leads to a
file that leads back to the module, its request waits for a file above the module on the stack, or
the request has been served before the module. -/
inductive Handles (walk : Walk) (importer : Nat) (dependency : Dependency) : Prop
  | ahead (frame : Frame) :
      frame ∈ walk.frames →
      frame.module = importer →
      dependency ∈ frame.remaining →
      Handles walk importer dependency
  | circular (id : Nat) :
      walk.registry.lookup dependency.target.path = some id →
      Relation.ReflTransGen walk.registry.Imports id importer →
      Handles walk importer dependency
  | waiting (id : Nat) :
      walk.registry.lookup dependency.target.path = some id →
      Awaits id dependency.request importer walk.frames →
      Handles walk importer dependency
  | served (id : Nat) :
      walk.registry.lookup dependency.target.path = some id →
      ServedBefore walk.events id dependency.request importer →
      Handles walk importer dependency

/-- A walk that has handled the dependencies of all loaded modules, and on whose stack every file
leads to those above it. -/
structure Ordered (walk : Walk) : Prop where
  tidy : walk.Tidy
  stack_reaches :
    (walk.frames.map (·.module)).Pairwise fun upper lower =>
      Relation.ReflTransGen walk.registry.Imports lower upper
  handles : ∀ importer module,
    walk.registry.module? importer = some module →
      ∀ dependency ∈ module.dependencies, walk.Handles importer dependency

/-- A file on the stack has not been served. -/
theorem Tidy.not_served
    (tidy : walk.Tidy)
    {id : Nat}
    (onStack : id ∈ walk.frames.map (·.module))
    (request : Request) :
    .serve id request ∉ walk.events := by
  intro served
  have underWay := (tidy.sound.mem_stack_iff id).mp onStack
  have resolved := tidy.served_resolved id request served
  rw [underWay] at resolved
  cases resolved

section Moves

variable {importer : Nat} {dependency : Dependency}

/-- A request that waits goes on waiting, or is served before the importer. -/
theorem handles_of_waiting
    {id : Nat}
    (tidy : walk.Tidy)
    (moved : Moves setting walk after)
    (known : after.registry.lookup dependency.target.path = some id)
    (awaits : Awaits id dependency.request importer walk.frames) :
    after.Handles importer dependency := by
  cases moved with
  | leave frame frames top finished =>
      have stackNodup := tidy.sound.stack_nodup
      have untouched := tidy.not_served awaits.importer_mem
      rw [top] at awaits stackNodup
      cases awaits with
      | deeper _ _ rest => exact Handles.waiting id known rest
      | here _ _ same waiting onStack =>
          have different : frame.module ≠ importer := by
            rintro rfl
            exact (List.nodup_cons.mp stackNodup).1 onStack
          refine Handles.served id known
            ⟨walk.events ++ frame.pending.map (.serve frame.module), [], ?_, ?_, ?_⟩
          · exact (List.append_nil _).symm
          · refine List.mem_append_right _ (List.mem_map.mpr ⟨_, waiting, ?_⟩)
            rw [same]
          · intro other served
            rcases List.mem_append.mp served with before | now
            · exact untouched other before
            · obtain ⟨_, _, event⟩ := List.mem_map.mp now
              exact different (Event.serve.inj event).1
  | enter frame frames entering remaining remarks module top ahead unknown loaded =>
      rw [top] at awaits
      exact Handles.waiting id known (.deeper _ _ (awaits.onward remaining))
  | park frame frames asking remaining other top ahead found waiting =>
      rw [top] at awaits
      exact Handles.waiting id known ((awaits.onward remaining).park other asking.request)
  | serve frame frames asking remaining other top ahead found settled =>
      rw [top] at awaits
      exact Handles.waiting id known (awaits.onward remaining)

/-- When the latest file goes on to its next import, every other import is still ahead. -/
theorem ahead_onward
    {top frame : Frame}
    {frames : List Frame}
    {next : Dependency}
    {remaining : List Dependency}
    (isTop : walk.frames = top :: frames)
    (ahead : top.remaining = next :: remaining)
    (onStack : frame ∈ walk.frames)
    (isImporter : frame.module = importer)
    (later : dependency ∈ frame.remaining) :
    (∃ other ∈ (walk.onward top remaining frames).frames,
        other.module = importer ∧ dependency ∈ other.remaining) ∨
      top.module = importer ∧ next = dependency := by
  rw [isTop] at onStack
  rcases List.mem_cons.mp onStack with rfl | below
  · rw [ahead] at later
    rcases List.mem_cons.mp later with rfl | rest
    · exact Or.inr ⟨isImporter, rfl⟩
    · exact Or.inl ⟨_, List.mem_cons_self, isImporter, rest⟩
  · exact Or.inl ⟨frame, List.mem_cons_of_mem _ below, isImporter, later⟩

/-- An import that is to be followed stays so, or its file is entered, or its request is served or
waits for a file on the stack, which leads to the importer. -/
theorem handles_of_ahead
    (ordered : walk.Ordered)
    (moved : Moves setting walk after)
    {frame : Frame}
    (onStack : frame ∈ walk.frames)
    (isImporter : frame.module = importer)
    (later : dependency ∈ frame.remaining) :
    after.Handles importer dependency := by
  have sound := ordered.tidy.sound
  have untouched : ∀ other, .serve importer other ∉ walk.events :=
    ordered.tidy.not_served (List.mem_map.mpr ⟨frame, onStack, isImporter⟩)
  have afterSound := sound_of_moves sound moved
  cases moved with
  | leave top frames isTop finished =>
      rw [isTop] at onStack
      rcases List.mem_cons.mp onStack with rfl | below
      · rw [finished] at later
        cases later
      · exact Handles.ahead frame below isImporter later
  | enter top frames next remaining remarks module isTop ahead unknown loaded =>
      rcases ahead_onward isTop ahead onStack isImporter later with
        ⟨other, member, same, rest⟩ | ⟨same, rfl⟩
      · exact Handles.ahead other (List.mem_cons_of_mem _ member) same rest
      · have number := (Setting.id_of_load loaded).trans sound.length_eq
        have found := module?_push (walk.onward top remaining frames) module remarks
          next.request number
        refine Handles.waiting module.id ?_ (.here _ _ rfl List.mem_cons_self ?_)
        · rw [afterSound.lookup_eq_some_iff found, Setting.path_of_load loaded]
        · exact List.mem_map.mpr ⟨_, List.mem_cons_self, same⟩
  | park top frames next remaining id isTop ahead known waiting =>
      rcases ahead_onward isTop ahead onStack isImporter later with
        ⟨other, member, same, rest⟩ | ⟨same, rfl⟩
      · exact Handles.ahead _ (List.mem_map_of_mem member)
          ((Frame.module_park id next.request other).trans same)
          ((Frame.remaining_park id next.request other).symm ▸ rest)
      · -- The file that is asked stands on the stack, and the importer is on top of it.
        refine Handles.circular id known ?_
        have asked := (sound.mem_stack_iff id).mpr waiting
        have reaches := ordered.stack_reaches
        rw [isTop, List.map_cons] at asked reaches
        rcases List.mem_cons.mp asked with rfl | below
        · rw [same]
        · rw [← same]
          exact (List.pairwise_cons.mp reaches).1 id below
  | serve top frames next remaining id isTop ahead known settled =>
      rcases ahead_onward isTop ahead onStack isImporter later with
        ⟨other, member, same, rest⟩ | ⟨same, rfl⟩
      · exact Handles.ahead other member same rest
      · have different : id ≠ importer := by
          rintro rfl
          exact settled ((sound.mem_stack_iff id).mp
            (List.mem_map.mpr ⟨frame, onStack, isImporter⟩))
        refine Handles.served id known ⟨walk.events ++ [.serve id next.request], [], ?_, ?_, ?_⟩
        · exact (List.append_nil _).symm
        · exact List.mem_append_right _ (List.mem_singleton_self _)
        · intro other served
          rcases List.mem_append.mp served with before | now
          · exact untouched other before
          · exact different (Event.serve.inj (List.mem_singleton.mp now)).1.symm

theorem handles_of_moves
    (ordered : walk.Ordered)
    (moved : Moves setting walk after)
    (handles : walk.Handles importer dependency) :
    after.Handles importer dependency := by
  cases handles with
  | ahead frame onStack isImporter later =>
      exact handles_of_ahead ordered moved onStack isImporter later
  | circular id known reaches =>
      exact Handles.circular id (lookup_of_moves moved known) (reaches_of_moves moved reaches)
  | waiting id known awaits =>
      exact handles_of_waiting ordered.tidy moved (lookup_of_moves moved known) awaits
  | served id known before =>
      obtain ⟨more, events⟩ := exists_events_of_moves moved
      refine Handles.served id (lookup_of_moves moved known) ?_
      rw [events]
      exact before.append more

end Moves

/-- Every file on the stack leads to those above it, after a step as before. -/
theorem stack_reaches_of_moves
    (ordered : walk.Ordered)
    (moved : Moves setting walk after) :
    (after.frames.map (·.module)).Pairwise fun upper lower =>
      Relation.ReflTransGen after.registry.Imports lower upper := by
  have kept :
      (walk.frames.map (·.module)).Pairwise fun upper lower =>
        Relation.ReflTransGen after.registry.Imports lower upper :=
    ordered.stack_reaches.imp (reaches_of_moves moved)
  have afterSound := sound_of_moves ordered.tidy.sound moved
  have entering := moved
  cases moved with
  | leave frame frames top finished =>
      rw [top] at kept
      exact (List.pairwise_cons.mp kept).2
  | enter frame frames dependency remaining remarks module top ahead unknown loaded =>
      have number := (Setting.id_of_load loaded).trans ordered.tidy.sound.length_eq
      have found := module?_push (walk.onward frame remaining frames) module remarks
        dependency.request number
      have known := (afterSound.lookup_eq_some_iff found).mpr
        (congrArg Path.components (Setting.path_of_load loaded).symm)
      obtain ⟨importing, importingFound, rest⟩ :=
        ordered.tidy.frame_module frame (top ▸ List.mem_cons_self)
      have imports :
          ((walk.onward frame remaining frames).push module remarks
            dependency.request).registry.Imports frame.module module.id :=
        ⟨importing, module?_of_moves entering importingFound, dependency,
          rest.subset (ahead ▸ List.mem_cons_self), known⟩
      rw [top] at kept
      refine List.pairwise_cons.mpr ⟨?_, kept⟩
      intro lower below
      rcases List.mem_cons.mp below with rfl | deeper
      · exact Relation.ReflTransGen.single imports
      · exact ((List.pairwise_cons.mp kept).1 lower deeper).tail imports
  | park frame frames dependency remaining id top ahead known waiting =>
      dsimp only
      rw [modules_park]
      rw [top] at kept
      exact kept
  | serve frame frames dependency remaining id top ahead known settled =>
      rw [top] at kept
      exact kept

theorem ordered_start
    {main : Location}
    {remarks : List Remark}
    {module : Module}
    (loaded : setting.load 0 main true = (remarks, .ok module)) :
    ((Walk.empty setting).push module remarks .main).Ordered where
  tidy := tidy_start loaded
  stack_reaches := List.pairwise_singleton _ _
  handles := by
    intro importer other found dependency member
    have modules :
        ((Walk.empty setting).push module remarks .main).registry.modules = [module] := rfl
    rw [Registry.module?, modules] at found
    have isFirst : importer = 0 := by
      have inRange := (List.getElem?_eq_some_iff.mp found).1
      rw [List.length_singleton] at inRange
      omega
    have isMain : other = module := List.mem_singleton.mp (List.mem_of_getElem? found)
    refine Handles.ahead _ List.mem_cons_self ?_ ?_
    · exact (Setting.id_of_load loaded).trans isFirst.symm
    · rw [← isMain]
      exact member

theorem ordered_of_moves
    (ordered : walk.Ordered)
    (moved : Moves setting walk after) :
    after.Ordered where
  tidy := tidy_of_moves ordered.tidy moved
  stack_reaches := stack_reaches_of_moves ordered moved
  handles := by
    intro importer module found dependency member
    rcases module?_before ordered.tidy.sound moved found with
      before | ⟨frame, onStack, isImporter, all⟩
    · exact handles_of_moves ordered moved
        (ordered.handles importer module before dependency member)
    · exact Handles.ahead frame onStack isImporter (all ▸ member)

end Walk

/-! ## The end of a walk -/

namespace Setting.Completes

variable {setting : Setting} {main : Location} {walk : Walk}

/-- By the end of a walk every dependency leads to a loaded module, which leads back to the importer
or has been served to it first. -/
theorem reaches_or_servedBefore
    (completes : setting.Completes main walk)
    {importer : Nat}
    {module : Module}
    (found : walk.registry.module? importer = some module)
    {dependency : Dependency}
    (member : dependency ∈ module.dependencies) :
    ∃ id,
      walk.registry.lookup dependency.target.path = some id ∧
        (Relation.ReflTransGen walk.registry.Imports id importer ∨
          ServedBefore walk.events id dependency.request importer) := by
  obtain ⟨ordered, noFrames⟩ :=
    completes.kept (fun _ _ => Walk.ordered_start) (fun _ _ => Walk.ordered_of_moves)
  cases ordered.handles importer module found dependency member with
  | ahead frame onStack isImporter later =>
      rw [noFrames] at onStack
      cases onStack
  | circular id known reaches => exact ⟨id, known, Or.inl reaches⟩
  | waiting id known awaits =>
      rw [noFrames] at awaits
      cases awaits
  | served id known before => exact ⟨id, known, Or.inr before⟩

end Setting.Completes

end Inliner
