import Inliner.Proofs.Walk.Invariant
import Mathlib.Data.List.Perm.Basic
import Mathlib.Data.List.Count

/-!
# No request is lost and none is served twice

Every import that leads to a module file is a request to that file.  A walk keeps it in one of
three places: among the imports still to be followed, among the requests that wait for a file
under way, or among those that have been served.  The three together are, at any time, the
request for the main file and one request for each dependency of each loaded module; at the end
of a walk only served requests are left.
-/

namespace Inliner

/-- The request that an event serves, with the number of the module. -/
def Event.serve? : Event → Option (Nat × Request)
  | .remark _ => none
  | .serve id request => some (id, request)

/-- The requests served in the course of some events, in order. -/
def servedRequests (events : List Event) : List (Nat × Request) :=
  events.filterMap Event.serve?

@[simp]
theorem servedRequests_append (first second : List Event) :
    servedRequests (first ++ second) =
      servedRequests first ++ servedRequests second := by
  simp [servedRequests]

@[simp]
theorem servedRequests_remarks (remarks : List Remark) :
    servedRequests (remarks.map .remark) = [] := by
  rw [servedRequests, List.filterMap_map]
  exact List.filterMap_eq_nil_iff.mpr fun _ _ => rfl

@[simp]
theorem servedRequests_serve (id : Nat) (requests : List Request) :
    servedRequests (requests.map (.serve id)) = requests.map (id, ·) := by
  rw [servedRequests, List.filterMap_map]
  exact congrFun List.filterMap_eq_map requests

/-- The file that a dependency asks, by its components, and what it asks for. -/
def Dependency.asks (dependency : Dependency) : List Component × Request :=
  (dependency.target.path.components, dependency.request)

namespace Registry

/-- The requests that the dependencies of the loaded modules make. -/
def asked (registry : Registry) : List (List Component × Request) :=
  registry.modules.flatMap (·.dependencies.map Dependency.asks)

/-- The requests that a merge has to serve: the one for the main file, and for each dependency of
each loaded module the one that it makes to the file it leads to. -/
def dueRequests (registry : Registry) : List (Option Nat × Request) :=
  (some 0, .main) :: registry.modules.flatMap fun module =>
    module.dependencies.map fun dependency =>
      (registry.lookup dependency.target.path, dependency.request)

/-- Keys that have been given out stay with their numbers when a file is met. -/
theorem getElem?_keys_register
    {registry : Registry} {path : Path} {id : Nat} {key : List Component}
    (unknown : registry.lookup path = none)
    (given : registry.keys[id]? = some key) :
    (registry.register path).1.keys[id]? = some key := by
  have inRange := (List.getElem?_eq_some_iff.mp given).1
  rw [register_of_lookup_eq_none unknown, keys_add, List.getElem?_append_left inRange]
  exact given

end Registry

namespace Frame

/-- The requests that wait for a file, with its number. -/
def waiting (frame : Frame) : List (Nat × Request) :=
  frame.pending.map (frame.module, ·)

theorem waiting_park (id : Nat) (request : Request) (frame : Frame) :
    (park id request frame).waiting =
      if frame.module = id then frame.waiting ++ [(id, request)] else frame.waiting := by
  unfold park
  split
  next same => simp [waiting, same]
  next => rfl

end Frame

namespace Walk

/-- The requests that a walk has assigned to a module: those served and those waiting. -/
def assigned (walk : Walk) : List (Nat × Request) :=
  servedRequests walk.events ++ walk.frames.flatMap Frame.waiting

/-- The requests of the imports that are still to be followed. -/
def unassigned (walk : Walk) : List (List Component × Request) :=
  walk.frames.flatMap (·.remaining.map Dependency.asks)

/-- The requests that a walk knows of, by the components of the files asked. -/
def known (walk : Walk) : List (Option (List Component) × Request) :=
  walk.assigned.map (fun entry => (walk.registry.keys[entry.1]?, entry.2)) ++
    walk.unassigned.map (fun entry => (some entry.1, entry.2))

/-- The requests that a walk should know of: the one for the main file, and those that the
dependencies of the loaded modules make. -/
def due (main : List Component) (walk : Walk) : List (Option (List Component) × Request) :=
  (some main, .main) :: walk.registry.asked.map (fun entry => (some entry.1, entry.2))

/-- A request that waits for a file on the way waits there once. -/
theorem perm_waiting_park
    {id : Nat} (request : Request) :
    ∀ {frames : List Frame},
      (frames.map (·.module)).Nodup →
      id ∈ frames.map (·.module) →
      ((frames.map (Frame.park id request)).flatMap Frame.waiting).Perm
        ((id, request) :: frames.flatMap Frame.waiting)
  | [], _, member => by
      simp at member
  | frame :: frames, nodup, member => by
      have parts := List.nodup_cons.mp (List.map_cons ▸ nodup)
      simp only [List.map_cons, List.flatMap_cons]
      rw [Frame.waiting_park]
      by_cases same : frame.module = id
      · have unchanged : frames.map (Frame.park id request) = frames := by
          conv_rhs => rw [← List.map_id frames]
          apply List.map_congr_left
          intro other otherMember
          have different : other.module ≠ id := by
            intro equal
            exact parts.1 (List.mem_map.mpr ⟨other, otherMember, equal.trans same.symm⟩)
          simp [Frame.park, different]
        rw [if_pos same, unchanged, List.append_assoc]
        exact List.perm_middle
      · have below : id ∈ frames.map (·.module) := by
          rcases List.mem_cons.mp member with equal | below
          · exact absurd equal.symm same
          · exact below
        rw [if_neg same]
        exact ((perm_waiting_park request parts.2 below).append_left _).trans List.perm_middle

theorem unassigned_park (id : Nat) (request : Request) (frames : List Frame) :
    (frames.map (Frame.park id request)).flatMap
        (·.remaining.map Dependency.asks) =
      frames.flatMap (·.remaining.map Dependency.asks) := by
  rw [List.flatMap_map]
  simp only [Frame.remaining_park]

/-- A walk knows exactly the requests that it should know of. -/
def Balanced (main : List Component) (walk : Walk) : Prop :=
  walk.known.Perm (walk.due main)

/-- In a balanced walk, every request is assigned to a file that has been met. -/
theorem Balanced.key_of_assigned
    {main : List Component} {walk : Walk} (balanced : walk.Balanced main)
    {id : Nat} {request : Request} (member : (id, request) ∈ walk.assigned) :
    ∃ key, walk.registry.keys[id]? = some key := by
  have knownMember : (walk.registry.keys[id]?, request) ∈ walk.known :=
    List.mem_append_left _ (List.mem_map.mpr ⟨(id, request), member, rfl⟩)
  have dueMember := balanced.mem_iff.mp knownMember
  rcases List.mem_cons.mp dueMember with atMain | fromModule
  · exact ⟨main, (Prod.mk.inj atMain).1⟩
  · obtain ⟨⟨key, _⟩, _, same⟩ := List.mem_map.mp fromModule
    exact ⟨key, (Prod.mk.inj same).1.symm⟩

theorem balanced_start
    {setting : Setting} {main : Location} {remarks : List Remark} {module : Module}
    (loaded : setting.load 0 main true = (remarks, .ok module)) :
    ((Walk.empty setting).push module remarks .main).Balanced main.path.components := by
  have number := Setting.id_of_load loaded
  have samePath := Setting.path_of_load loaded
  have nothingServed : servedRequests (remarks.map .remark) = [] :=
    servedRequests_remarks remarks
  unfold Balanced
  refine List.Perm.of_eq ?_
  simp [known, due, assigned, unassigned, push, Walk.empty, Registry.empty, Registry.asked,
    Registry.attach, Registry.register, Registry.add, Registry.lookup, Registry.keys,
    Frame.waiting, nothingServed, number, samePath]

/-- Leaving a file serves the requests that wait for it. -/
theorem balanced_leave
    {main : List Component} {walk : Walk} {frame : Frame} {frames : List Frame}
    (balanced : walk.Balanced main)
    (top : walk.frames = frame :: frames) (finished : frame.remaining = []) :
    ({ walk with frames := frames }.leave frame).Balanced main := by
  have sameKnown : ({ walk with frames := frames }.leave frame).known = walk.known := by
    simp only [known, assigned, unassigned, leave, top, finished, Registry.keys_markResolved,
      servedRequests_append, servedRequests_serve, Frame.waiting, List.flatMap_cons,
      List.map_nil, List.nil_append, List.append_assoc]
  unfold Balanced
  rw [sameKnown]
  exact balanced

/-- Following an import assigns its request to one file.  The imports of that file, if it is met
only now, are known and due from then on. -/
theorem balanced_assign
    {main : List Component} {walk after : Walk} (id : Nat) (dependency : Dependency)
    (fresh : List (List Component × Request)) {rest : List (List Component × Request)}
    (balanced : walk.Balanced main)
    (keysKept : ∀ (other : Nat) (key : List Component),
      walk.registry.keys[other]? = some key → after.registry.keys[other]? = some key)
    (found : after.registry.keys[id]? = some dependency.target.path.components)
    (assigned : after.assigned.Perm ((id, dependency.request) :: walk.assigned))
    (ahead : walk.unassigned = dependency.asks :: rest)
    (unassigned : after.unassigned = fresh ++ rest)
    (asked : after.registry.asked = walk.registry.asked ++ fresh) :
    after.Balanced main := by
  have sameKeys :
      walk.assigned.map (fun entry => (after.registry.keys[entry.1]?, entry.2)) =
        walk.assigned.map (fun entry => (walk.registry.keys[entry.1]?, entry.2)) := by
    apply List.map_congr_left
    rintro ⟨other, request⟩ member
    obtain ⟨key, given⟩ := balanced.key_of_assigned member
    dsimp only
    rw [given, keysKept other key given]
  have assignedKeys :=
    assigned.map (fun entry => (after.registry.keys[entry.1]?, entry.2))
  rw [List.map_cons, sameKeys] at assignedKeys
  refine List.perm_iff_count.mpr fun entry => ?_
  have before := List.perm_iff_count.mp balanced entry
  have moved := List.perm_iff_count.mp assignedKeys entry
  simp only [known, due, ahead, List.map_cons, List.count_append, List.count_cons,
    Dependency.asks] at before
  simp only [found, List.count_cons] at moved
  simp only [known, due, unassigned, asked, List.map_append, List.count_append,
    List.count_cons]
  omega

section Onward

variable {walk : Walk} {frame : Frame} {frames : List Frame}
variable {dependency : Dependency} {remaining : List Dependency}

theorem assigned_onward
    (remaining : List Dependency) (top : walk.frames = frame :: frames) :
    (walk.onward frame remaining frames).assigned = walk.assigned := by
  simp [assigned, onward, top, Frame.waiting]

/-- The next import is the first request that is not assigned. -/
theorem unassigned_onward
    (top : walk.frames = frame :: frames)
    (ahead : frame.remaining = dependency :: remaining) :
    walk.unassigned =
      dependency.asks :: (walk.onward frame remaining frames).unassigned := by
  simp [unassigned, onward, top, ahead]

/-- A file that is met for an import has the request of that import waiting for it. -/
theorem perm_assigned_enter
    {module : Module} {remarks : List Remark} {request : Request}
    (top : walk.frames = frame :: frames) :
    ((walk.onward frame remaining frames).push module remarks request).assigned.Perm
      ((module.id, request) :: walk.assigned) := by
  rw [← assigned_onward remaining top]
  simp only [assigned, push, servedRequests_append, servedRequests_remarks,
    List.append_nil, List.flatMap_cons]
  exact List.perm_middle

theorem perm_assigned_park
    {id : Nat} {request : Request}
    (sound : walk.Sound) (top : walk.frames = frame :: frames)
    (underWay : walk.registry.state? id = some .inProgress) :
    ({ walk.onward frame remaining frames with
        frames := (walk.onward frame remaining frames).frames.map
          (Frame.park id request) } : Walk).assigned.Perm
      ((id, request) :: walk.assigned) := by
  have onStack := (sound.mem_stack_iff id).mpr underWay
  have stackNodup := sound.stack_nodup
  have sameStack :
      walk.frames.map (·.module) =
        (walk.onward frame remaining frames).frames.map (·.module) := by
    simp [onward, top]
  rw [sameStack] at onStack stackNodup
  have parked := perm_waiting_park request stackNodup onStack
  rw [← assigned_onward remaining top]
  exact (parked.append_left (servedRequests walk.events)).trans List.perm_middle

theorem perm_assigned_serve
    {id : Nat} {request : Request} (top : walk.frames = frame :: frames) :
    ({ walk.onward frame remaining frames with
        events := walk.events ++ [.serve id request] } : Walk).assigned.Perm
      ((id, request) :: walk.assigned) := by
  rw [← assigned_onward remaining top]
  simp only [assigned, servedRequests_append, List.append_assoc]
  exact List.perm_middle

end Onward

/-- Every move keeps a walk balanced. -/
theorem balanced_of_moves
    {setting : Setting} {main : List Component} {walk after : Walk}
    (sound : walk.Sound) (balanced : walk.Balanced main)
    (moved : Moves setting walk after) :
    after.Balanced main := by
  cases moved with
  | leave frame frames top finished => exact balanced_leave balanced top finished
  | enter frame frames dependency remaining remarks module top ahead unknown loaded =>
      have samePath := Setting.path_of_load loaded
      have number := Setting.id_of_load loaded
      refine balanced_assign module.id dependency
        (module.dependencies.map Dependency.asks) balanced ?_ ?_
        (perm_assigned_enter top) (unassigned_onward top ahead) rfl ?_
      · intro other key given
        exact Registry.getElem?_keys_register (samePath ▸ unknown) given
      · simp only [push, onward, Registry.keys_attach, samePath,
          Registry.register_of_lookup_eq_none unknown, number, Registry.keys_add,
          ← Registry.length_keys, List.getElem?_concat_length]
      · simp [Registry.asked, push, onward, Registry.attach, samePath,
          Registry.register_of_lookup_eq_none unknown]
  | park frame frames dependency remaining id top ahead known waiting =>
      exact balanced_assign id dependency [] balanced (fun _ _ given => given)
        (Registry.getElem?_keys_of_lookup known) (perm_assigned_park sound top waiting)
        (unassigned_onward top ahead) (unassigned_park id dependency.request _)
        (List.append_nil _).symm
  | serve frame frames dependency remaining id top ahead known settled =>
      exact balanced_assign id dependency [] balanced (fun _ _ given => given)
        (Registry.getElem?_keys_of_lookup known) (perm_assigned_serve top)
        (unassigned_onward top ahead) rfl (List.append_nil _).symm

/-- Keys that have been given out stay with their numbers. -/
theorem getElem?_keys_of_moves
    {setting : Setting} {walk after : Walk} {id : Nat} {key : List Component}
    (moved : Moves setting walk after)
    (given : walk.registry.keys[id]? = some key) :
    after.registry.keys[id]? = some key := by
  cases moved with
  | leave frame frames top finished =>
      simp only [leave, Registry.keys_markResolved]
      exact given
  | enter frame frames dependency remaining remarks module top ahead unknown loaded =>
      rw [← Setting.path_of_load loaded] at unknown
      exact Registry.getElem?_keys_register unknown given
  | park => exact given
  | serve => exact given

/-! ## The requests served by the end -/

/-- Every file that has been met has a request that is served or waits. -/
def Attended (walk : Walk) : Prop :=
  ∀ id < walk.registry.states.length, ∃ request, (id, request) ∈ walk.assigned

theorem attended_of_moves
    {setting : Setting} {walk after : Walk}
    (sound : walk.Sound) (attended : walk.Attended) (moved : Moves setting walk after) :
    after.Attended := by
  cases moved with
  | leave frame frames top finished =>
      intro id met
      have sameAssigned :
          ({ walk with frames := frames }.leave frame).assigned = walk.assigned := by
        simp [assigned, leave, top, Frame.waiting]
      rw [sameAssigned]
      exact attended id (by simpa [leave, Registry.markResolved] using met)
  | enter frame frames dependency remaining remarks module top ahead unknown loaded =>
      intro id met
      have assigned :
          ((walk.onward frame remaining frames).push module remarks
            dependency.request).assigned.Perm
            ((module.id, dependency.request) :: walk.assigned) :=
        perm_assigned_enter top
      by_cases earlier : id < walk.registry.states.length
      · obtain ⟨request, member⟩ := attended id earlier
        exact ⟨request, assigned.mem_iff.mpr (List.mem_cons_of_mem _ member)⟩
      · have bound : id < walk.registry.states.length + 1 := by
          simpa [push, onward, Registry.attach, Setting.path_of_load loaded,
            Registry.register_of_lookup_eq_none unknown] using met
        have fresh : id = module.id := by
          rw [Setting.id_of_load loaded]
          omega
        exact ⟨dependency.request, assigned.mem_iff.mpr (fresh ▸ List.mem_cons_self)⟩
  | park frame frames dependency remaining id top ahead known waiting =>
      intro other met
      obtain ⟨request, member⟩ := attended other met
      exact ⟨request, (perm_assigned_park sound top waiting).mem_iff.mpr
        (List.mem_cons_of_mem _ member)⟩
  | serve frame frames dependency remaining id top ahead known settled =>
      intro other met
      obtain ⟨request, member⟩ := attended other met
      exact ⟨request, (perm_assigned_serve top).mem_iff.mpr (List.mem_cons_of_mem _ member)⟩

/-- A walk that is sound and balanced and attends to every file, with the main file as its first
one. -/
structure Accounted (main : List Component) (walk : Walk) : Prop where
  sound : walk.Sound
  balanced : walk.Balanced main
  attended : walk.Attended
  mainFirst : walk.registry.keys[0]? = some main

theorem accounted_start
    {setting : Setting} {main : Location} {remarks : List Remark} {module : Module}
    (loaded : setting.load 0 main true = (remarks, .ok module)) :
    ((Walk.empty setting).push module remarks .main).Accounted main.path.components where
  sound := sound_start loaded
  balanced := balanced_start loaded
  attended := by
    intro id met
    have first : id = module.id := by
      rw [Setting.id_of_load loaded]
      simpa [push, Walk.empty, Registry.empty, Registry.attach, Registry.register,
        Registry.lookup] using met
    refine ⟨.main, ?_⟩
    simp [assigned, push, Walk.empty, Frame.waiting, first]
  mainFirst := by
    simp [push, Walk.empty, Registry.empty, Registry.attach, Registry.register,
      Registry.add, Registry.lookup, Registry.keys, Setting.path_of_load loaded]

theorem accounted_of_moves
    {setting : Setting} {main : List Component} {walk after : Walk}
    (accounted : walk.Accounted main) (moved : Moves setting walk after) :
    after.Accounted main where
  sound := sound_of_moves accounted.sound moved
  balanced := balanced_of_moves accounted.sound accounted.balanced moved
  attended := attended_of_moves accounted.sound accounted.attended moved
  mainFirst := getElem?_keys_of_moves moved accounted.mainFirst

end Walk

namespace Setting.Completes

variable {setting : Setting} {main : Location} {walk : Walk}

theorem accounted (completes : setting.Completes main walk) :
    walk.Accounted main.path.components :=
  (completes.kept (fun _ _ => Walk.accounted_start)
    (fun _ _ => Walk.accounted_of_moves)).1

theorem frames_eq_nil (completes : setting.Completes main walk) :
    walk.frames = [] :=
  (completes.kept (fun _ _ => Walk.accounted_start)
    (fun _ _ => Walk.accounted_of_moves)).2

/-- By the end of a walk the request for the main file has been served once, and the request of
each dependency of each loaded module has been served once, by the file it leads to. -/
theorem perm_dueRequests (completes : setting.Completes main walk) :
    ((servedRequests walk.events).map fun entry => (some entry.1, entry.2)).Perm
      walk.registry.dueRequests := by
  have accounted := completes.accounted
  have finished := completes.frames_eq_nil
  let number (entry : Option (List Component) × Request) : Option Nat × Request :=
    (entry.1.bind walk.registry.numberOf?, entry.2)
  have numbered := accounted.balanced.map number
  have knownNumbers :
      walk.known.map number =
        (servedRequests walk.events).map (fun entry => (some entry.1, entry.2)) := by
    have onlyServed : walk.assigned = servedRequests walk.events := by
      simp [Walk.assigned, finished]
    simp only [Walk.known, Walk.unassigned, finished, List.flatMap_nil, List.map_nil,
      List.append_nil, List.map_map]
    rw [← onlyServed]
    apply List.map_congr_left
    rintro ⟨id, request⟩ member
    obtain ⟨key, given⟩ := accounted.balanced.key_of_assigned member
    have found := Registry.numberOf?_of_getElem?_keys accounted.sound.keys_nodup given
    simp only [number, Function.comp_apply, given, Option.bind_some, found]
  have dueNumbers : (walk.due main.path.components).map number = walk.registry.dueRequests := by
    have mainNumber :=
      Registry.numberOf?_of_getElem?_keys accounted.sound.keys_nodup accounted.mainFirst
    simp only [Walk.due, Registry.dueRequests, Registry.asked, number, List.map_cons,
      List.map_map, List.map_flatMap, Function.comp_def, Dependency.asks, Option.bind_some,
      mainNumber, Registry.lookup_eq_numberOf?]
  rw [knownNumbers, dueNumbers] at numbered
  exact numbered

end Setting.Completes

end Inliner
