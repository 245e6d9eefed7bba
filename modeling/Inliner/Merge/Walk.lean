import Inliner.Merge.Plan
import Inliner.Merge.Registry

/-!
Following imports. A walk goes depth first along the imports of the main file. A file is served
to those that asked for it once all its own imports have been followed; a request for a file
whose imports are still being followed waits for that. Each file is loaded once, so the walk
comes to an end whatever the imports are.
-/

namespace Inliner

/-- Something that happens on a walk. -/
inductive Event where
  | remark (remark : Remark)
  | serve (module : Nat) (request : Request)
deriving DecidableEq, Repr

/-- A file whose imports are being followed, with the imports that are left, and the requests that
wait for it in the order in which they came up. -/
structure Frame where
  module : Nat
  remaining : List Dependency
  pending : List Request
deriving DecidableEq, Repr, Inhabited

/-- How far a walk has come: the files that have been met, those whose imports are being followed,
the latest one first, and what has happened. -/
structure Walk where
  registry : Registry
  frames : List Frame
  events : List Event
deriving DecidableEq, Repr

/-- What comes of a step. -/
inductive Progress where
  | done
  | next (walk : Walk)
  | failed (remarks : List Remark) (error : MergeError)
deriving DecidableEq, Repr

namespace Frame

/-- Lets a request wait for the file of a number. -/
def park (id : Nat) (request : Request) (frame : Frame) : Frame :=
  if frame.module = id then { frame with pending := frame.pending ++ [request] } else frame

/-- The number of steps until all imports of a file have been followed, those of other files not
counted. -/
def weight (frame : Frame) : Nat :=
  frame.remaining.length + 1

end Frame

namespace Walk

def empty (setting : Setting) : Walk :=
  ⟨.empty setting.workspaceRoot.path, [], []⟩

/-- Turns to the imports of a file that has just been loaded. -/
def push (walk : Walk) (module : Module) (remarks : List Remark) (request : Request) : Walk :=
  { registry := (walk.registry.register module.path).1.attach module
    frames := ⟨module.id, module.dependencies, [request]⟩ :: walk.frames
    events := walk.events ++ remarks.map .remark }

def enter (setting : Setting) (walk : Walk) (location : Location) (request : Request) :
    Progress :=
  match setting.load (walk.registry.register location.path).2 location false with
  | (remarks, .error error) => .failed remarks error
  | (remarks, .ok module) => .next (walk.push module remarks request)

def leave (walk : Walk) (frame : Frame) : Walk :=
  { registry := walk.registry.markResolved frame.module
    frames := walk.frames
    events := walk.events ++ frame.pending.map (.serve frame.module) }

/-- Serves a file that has been dealt with, or lets the request wait for it. -/
def ask (walk : Walk) (id : Nat) (request : Request) : Walk :=
  match walk.registry.state? id with
  | some .inProgress => { walk with frames := walk.frames.map (Frame.park id request) }
  | some .resolved | none => { walk with events := walk.events ++ [.serve id request] }

/-- Takes one step: follows the next import of the latest file, or leaves that file. -/
def step (setting : Setting) (walk : Walk) : Progress :=
  match walk.frames with
  | [] => .done
  | frame :: frames =>
      match frame.remaining with
      | [] => .next ({ walk with frames := frames }.leave frame)
      | dependency :: remaining =>
          let onward := { walk with frames := { frame with remaining := remaining } :: frames }
          match walk.registry.lookup dependency.target.path with
          | none => onward.enter setting dependency.target dependency.request
          | some id => .next (onward.ask id dependency.request)

end Walk

/-! ## The end of a walk -/

namespace Registry

/-- Whether a file has not been met. -/
def lacks (registry : Registry) (location : Location) : Bool :=
  (registry.lookup location.path).isNone

/-- The number of files of a tree that have not been met. -/
def unmet (registry : Registry) (tree : FileTree) : Nat :=
  tree.files.countP fun file => registry.lacks file.1

theorem unmet_markResolved (registry : Registry) (tree : FileTree) (id : Nat) :
    (registry.markResolved id).unmet tree = registry.unmet tree :=
  rfl

theorem unmet_attach (registry : Registry) (tree : FileTree) (module : Module) :
    (registry.attach module).unmet tree = registry.unmet tree :=
  rfl

/-- A file that has been met is still known after another one is registered. -/
theorem lacks_of_lacks_register (registry : Registry) (path : Path) (location : Location)
    (unknown : (registry.register path).1.lacks location = true) :
    registry.lacks location = true := by
  unfold register at unknown
  split at unknown
  · exact unknown
  · simp only [lacks, lookup, add, List.lookup_append, Option.isNone_or, Bool.and_eq_true]
      at unknown
    exact unknown.1

/-- A file is known after it is registered. -/
theorem lacks_register_self (registry : Registry) (location : Location) :
    (registry.register location.path).1.lacks location = false := by
  unfold register
  split
  next id found => simp [lacks, found]
  next => simp [lacks, lookup, add, List.lookup_append]

end Registry

/-- Fewer items have a stronger property, if one of them has the weaker one only. -/
theorem countP_lt_countP {α : Type} {stronger weaker : α → Bool} {items : List α} {item : α}
    (weakened : ∀ other, stronger other = true → weaker other = true)
    (member : item ∈ items) (weak : weaker item = true) (notStrong : stronger item = false) :
    items.countP stronger < items.countP weaker := by
  induction items with
  | nil => simp at member
  | cons head tail ih =>
      have tailLe : tail.countP stronger ≤ tail.countP weaker :=
        List.countP_mono_left fun other _ => weakened other
      rcases List.mem_cons.mp member with rfl | tailMember
      · simp only [List.countP_cons, weak, notStrong]
        simp only [Bool.false_eq_true, ↓reduceIte]
        omega
      · have tailLt := ih tailMember
        have headLe := weakened head
        simp only [List.countP_cons]
        cases strong : stronger head
        · simp only [Bool.false_eq_true, ↓reduceIte]
          omega
        · simp only [headLe strong, ↓reduceIte]
          omega

namespace FileTree

variable {tree : FileTree} {location : Location}

/-- Whether there is no file at a location itself. -/
def lacks (tree : FileTree) (location : Location) : Bool :=
  (tree.content? location).isNone

theorem exists_mem_files (held : tree.lacks location = false) :
    ∃ content, (location, content) ∈ tree.files := by
  obtain ⟨content, found⟩ : ∃ content, tree.content? location = some content := by
    simpa [lacks, Option.isSome_iff_exists] using held
  unfold content? at found
  split at found
  · simp at found
  obtain ⟨before, after, files, _⟩ := List.lookup_eq_some_iff.mp found
  exact ⟨content, by simp [files]⟩

theorem lacks_normalize {path : Path} (isFile : tree.isFile path = true) :
    tree.lacks (tree.normalize path) = false := by
  unfold FileTree.isFile at isFile
  split at isFile
  next location located =>
    rw [normalize, located, lacks, Option.isNone_eq_false_iff]
    exact isFile
  next => simp at isFile

end FileTree

/-! ## Where imports lead -/

namespace Resolver

variable {resolver : Resolver} {tree : FileTree} {target : Location}

theorem lacks_of_requireFile {path : Path} (leads : requireFile tree path = .library target) :
    tree.lacks target = false := by
  unfold requireFile at leads
  split at leads
  next isFile =>
    rw [← Resolution.library.inj leads]
    exact FileTree.lacks_normalize isFile
  next => simp at leads

theorem lacks_of_underLibrary {segments : List String}
    (leads : resolver.underLibrary tree segments = .library target) :
    tree.lacks target = false := by
  unfold underLibrary at leads
  split at leads
  · simp at leads
  · exact lacks_of_requireFile leads

theorem lacks_of_resolveProbed {directory : Path} {segments : List String}
    (leads : resolver.resolveProbed tree directory segments = .library target) :
    tree.lacks target = false := by
  unfold resolveProbed at leads
  dsimp only at leads
  split at leads
  next isFile =>
    rw [← Resolution.library.inj leads]
    exact FileTree.lacks_normalize isFile
  next =>
    split at leads
    next isFile =>
      rw [← Resolution.library.inj leads]
      exact FileTree.lacks_normalize isFile
    next => simp at leads

theorem lacks_of_resolveRelative {directory : Path} {module : ModulePath}
    (leads : resolver.resolveRelative tree directory module = .library target) :
    tree.lacks target = false := by
  unfold resolveRelative at leads
  split at leads
  · simp at leads
  · split at leads
    · simp at leads
    · split at leads
      · simp at leads
      · split at leads
        · exact lacks_of_underLibrary leads
        · exact lacks_of_requireFile leads

/-- An import leads to a file of the tree, whatever links are on the way. -/
theorem lacks_of_resolve {importer : Path} {module : ModulePath}
    (leads : resolver.resolve tree importer module = .library target) :
    tree.lacks target = false := by
  unfold resolve at leads
  dsimp only at leads
  split at leads
  · exact lacks_of_resolveRelative leads
  · split at leads
    · split at leads
      · exact lacks_of_underLibrary leads
      · exact lacks_of_resolveProbed leads
    · exact lacks_of_resolveProbed leads

end Resolver

namespace Setting

variable {setting : Setting} {id : Nat} {location : Location} {isMain lenient : Bool}
  {remarks : List Remark} {module : Module}

theorem lacks_of_dependency {declaration : ImportDeclaration} {dependency : Dependency}
    (found : setting.dependency location lenient declaration = .ok (some dependency, remarks)) :
    setting.tree.lacks dependency.target = false := by
  unfold Setting.dependency at found
  dsimp only at found
  split at found
  next target leads =>
    simp only [Except.ok.injEq, Prod.mk.injEq, Option.some.injEq] at found
    rw [← found.1]
    exact Resolver.lacks_of_resolve leads
  next => simp at found
  next => split at found <;> simp at found

theorem lacks_of_dependencies {dependency : Dependency} :
    ∀ {imports : List ImportDeclaration} {remarks : List Remark}
      {settled : List (ImportDeclaration × Option Dependency)},
      setting.dependencies location lenient imports = (remarks, .ok settled) →
        dependency ∈ settled.filterMap (·.2) →
          setting.tree.lacks dependency.target = false
  | [], _, _, done, member => by
      obtain rfl := Except.ok.inj (Prod.mk.inj done).2
      simp at member
  | declaration :: declarations, _, _, done, member => by
      unfold dependencies at done
      split at done
      next => simp at done
      next found _ here =>
        split at done
        next => simp at done
        next rest later =>
          obtain rfl := Except.ok.inj (Prod.mk.inj done).2
          rw [List.mem_filterMap] at member
          obtain ⟨pair, inPairs, isFound⟩ := member
          rcases List.mem_cons.mp inPairs with rfl | inRest
          · obtain rfl : found = some dependency := isFound
            exact lacks_of_dependency here
          · exact lacks_of_dependencies later (List.mem_filterMap.mpr ⟨pair, inRest, isFound⟩)

/-- The dependencies of a loaded module are files of the tree. -/
theorem lacks_of_load {dependency : Dependency}
    (loaded : setting.load id location isMain = (remarks, .ok module))
    (member : dependency ∈ module.dependencies) :
    setting.tree.lacks dependency.target = false := by
  unfold load plan verbatimModule at loaded
  repeat' split at loaded
  all_goals
    simp only [Prod.mk.injEq, reduceCtorEq, and_false, Except.ok.injEq] at loaded
  next imports settled =>
    rw [← loaded.2] at member
    exact lacks_of_dependencies settled member
  next =>
    rw [← loaded.2] at member
    simp at member

/-- A loaded module has the path of its file. -/
theorem path_of_load (loaded : setting.load id location isMain = (remarks, .ok module)) :
    module.path = location.path := by
  unfold load plan verbatimModule at loaded
  repeat' split at loaded
  all_goals
    simp only [Prod.mk.injEq, reduceCtorEq, and_false, Except.ok.injEq] at loaded
  all_goals
    rw [← loaded.2]

end Setting

/-! ## What gets smaller -/

/-- Loading a file of the tree that has not been met leaves fewer such files. -/
theorem Registry.unmet_register_lt {registry : Registry} {tree : FileTree} {location : Location}
    (unknown : registry.lookup location.path = none) (held : tree.lacks location = false) :
    (registry.register location.path).1.unmet tree < registry.unmet tree := by
  obtain ⟨content, member⟩ := FileTree.exists_mem_files held
  exact countP_lt_countP (fun file => registry.lacks_of_lacks_register location.path file.1)
    member (by simp [lacks, unknown]) (registry.lacks_register_self location)

theorem Registry.unmet_register_le (registry : Registry) (tree : FileTree)
    (location : Location) :
    (registry.register location.path).1.unmet tree ≤ registry.unmet tree :=
  List.countP_mono_left fun file _ => registry.lacks_of_lacks_register location.path file.1

namespace Walk

/-- The number of imports still to be followed whose targets are no files of the tree. A walk of a
merge has none, but it is of every walk that it comes to an end. -/
def astray (tree : FileTree) : List Frame → Nat
  | [] => 0
  | frame :: frames =>
      (frame.remaining.countP fun dependency => tree.lacks dependency.target) +
        astray tree frames

def weightOf : List Frame → Nat
  | [] => 0
  | frame :: frames => frame.weight + weightOf frames

def weight (walk : Walk) : Nat :=
  weightOf walk.frames

/-- What gets smaller with every step. -/
def measure (setting : Setting) (walk : Walk) : Nat × Nat :=
  (walk.registry.unmet setting.tree + astray setting.tree walk.frames, walk.weight)

theorem weight_park (id : Nat) (request : Request) (frames : List Frame) :
    weightOf (frames.map (Frame.park id request)) = weightOf frames := by
  induction frames with
  | nil => rfl
  | cons frame frames ih =>
      have kept : (Frame.park id request frame).weight = frame.weight := by
        unfold Frame.park
        split <;> rfl
      simp only [List.map_cons, weightOf, kept, ih]

theorem astray_park (tree : FileTree) (id : Nat) (request : Request) (frames : List Frame) :
    astray tree (frames.map (Frame.park id request)) = astray tree frames := by
  induction frames with
  | nil => rfl
  | cons frame frames ih =>
      have kept : (Frame.park id request frame).remaining = frame.remaining := by
        unfold Frame.park
        split <;> rfl
      simp only [List.map_cons, astray, kept, ih]

theorem measure_ask (setting : Setting) (walk : Walk) (id : Nat) (request : Request) :
    (walk.ask id request).measure setting = walk.measure setting := by
  unfold ask
  split
  · simp only [measure, weight, weight_park, astray_park]
  · rfl
  · rfl

/-- Loading a file that has not been met leaves fewer files of the tree to be met, or fewer imports
that lead to none of them. -/
theorem unmet_enter_lt {setting : Setting} {walk after : Walk} {frame : Frame}
    {frames : List Frame} {dependency : Dependency} {remaining : List Dependency}
    (unknown : walk.registry.lookup dependency.target.path = none)
    (ahead : frame.remaining = dependency :: remaining)
    (entered :
      enter setting { walk with frames := { frame with remaining := remaining } :: frames }
        dependency.target dependency.request = .next after) :
    after.registry.unmet setting.tree + astray setting.tree after.frames <
      walk.registry.unmet setting.tree + astray setting.tree (frame :: frames) := by
  unfold enter at entered
  split at entered
  next => simp at entered
  next remarks module loaded =>
    obtain rfl := Progress.next.inj entered
    have noneAstray :
        (module.dependencies.countP fun other => setting.tree.lacks other.target) = 0 := by
      rw [List.countP_eq_zero]
      intro other member
      simp [Setting.lacks_of_load loaded member]
    simp only [push, astray, noneAstray, Setting.path_of_load loaded, ahead, List.countP_cons,
      Registry.unmet_attach]
    cases held : setting.tree.lacks dependency.target with
    | false =>
        have fewer := Registry.unmet_register_lt unknown held
        simp only [Bool.false_eq_true, if_false]
        omega
    | true =>
        have noMore :=
          Registry.unmet_register_le walk.registry setting.tree dependency.target
        simp only [if_true]
        omega

/-- Every step makes the measure smaller. -/
theorem measure_step_lt {setting : Setting} {walk after : Walk}
    (stepped : walk.step setting = .next after) :
    Prod.Lex (· < ·) (· < ·) (after.measure setting) (walk.measure setting) := by
  unfold step at stepped
  split at stepped
  next => simp at stepped
  next frame frames walkFrames =>
    split at stepped
    next finished =>
      simp only [Progress.next.injEq] at stepped
      subst stepped
      apply Prod.Lex.right'
      · simp [leave, Registry.unmet_markResolved, walkFrames, astray, finished]
      · simp [leave, weight, weightOf, walkFrames, Frame.weight]
    next dependency remaining frameRemaining =>
      split at stepped
      next unknown =>
        apply Prod.Lex.left
        rw [walkFrames]
        exact unmet_enter_lt unknown frameRemaining stepped
      next id known =>
        simp only [Progress.next.injEq] at stepped
        subst stepped
        rw [measure_ask]
        apply Prod.Lex.right'
        · simp only [walkFrames, astray, frameRemaining, List.countP_cons]
          omega
        · simp [weight, weightOf, walkFrames, Frame.weight, frameRemaining]

/-- Walks to the end, or up to a file that cannot be loaded, with the reason. -/
def run (setting : Setting) (walk : Walk) : Walk × Option MergeError :=
  match _stepped : walk.step setting with
  | .done => (walk, none)
  | .failed remarks error =>
      ({ walk with events := walk.events ++ remarks.map .remark }, some error)
  | .next after => run setting after
termination_by walk.measure setting
decreasing_by exact measure_step_lt ‹walk.step setting = .next after›

end Walk

end Inliner
