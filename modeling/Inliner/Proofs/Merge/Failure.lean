import Inliner.Proofs.Merge.Lookups
import Inliner.Proofs.Walk.Requests
import Inliner.Proofs.Walk.Stages

/-!
# When a merge fails

A file has a fault if it is in another language, cannot be read, breaks the grammar or imports a
module that is missing, the last two unless it may have faults.  A merge fails if and only if a
file that can be reached from the main file has a fault, and then with the fault of the first such
file in the order in which the imports are followed, depth first.  Only the main file can be in
another language where there are no links: imports ask for names with the extension of the language.
A link with such a name may stand for any other file.
-/

namespace Inliner

/-! ## Valid configurations -/

/-- What a valid configuration gives: module files in the language, and a library with a name in the
workspace. -/
structure MergeConfig.IsValid (config : MergeConfig) (tree : FileTree) : Prop where
  python : Language.ofExtension config.extension = .python
  libraryNamed : ∃ library : String, config.libraryName? tree = some library.toList
  libraryWithin : (config.workspaceLocation tree).names <+: (config.libraryLocation tree).names

theorem MergeConfig.isValid_of_validate
    {config : MergeConfig}
    {tree : FileTree}
    (valid : config.validate tree = .ok ()) :
    config.IsValid tree := by
  unfold validate at valid
  dsimp only at valid
  split at valid
  · cases valid
  · split at valid
    · cases valid
    next python =>
      split at valid
      · cases valid
      next name named =>
        split at valid
        · cases valid
        · split at valid
          · cases valid
          next inside =>
            exact ⟨by simpa using python, ⟨String.ofList name, by rw [named, String.toList_ofList]⟩,
              by simpa using inside⟩

namespace Setting

/-! ## Faults of a file -/

/-- The module files that the imports of a source in a file lead to, in order. -/
def targetsOf (setting : Setting) (location : Location) (imports : List ImportDeclaration) :
    List Location :=
  imports.filterMap fun declaration =>
    match setting.resolver.resolve setting.tree location.path declaration.module with
    | .library target => some target
    | .foreign | .missing _ => none

/-- The module files that the imports of a file lead to, if it can be analysed. -/
def targets (setting : Setting) (location : Location) : List Location :=
  match setting.tree.parsedAt? location with
  | some source => setting.targetsOf location source.imports
  | none => []

/-- The error that an import of a file that leads nowhere amounts to. -/
def missing? (setting : Setting) (location : Location) (declaration : ImportDeclaration) :
    Option MergeError :=
  match setting.resolver.resolve setting.tree location.path declaration.module with
  | .missing reason =>
      some (.missingLibrary (String.ofList declaration.module.display) location declaration.line
        reason)
  | .library _ | .foreign => none

/-- What is wrong with a file. -/
def fault? (setting : Setting) (location : Location) : Option MergeError :=
  if Language.ofPath location.path ≠ .python then
    some (.unsupportedFile location)
  else
    match setting.tree.readAt location with
    | .error error => some (.unreadable location error)
    | .ok text =>
        if setting.isLenient location then
          none
        else
          match ParsedSource.parse text with
          | .error error => some (.parse location error)
          | .ok source => source.imports.findSome? (setting.missing? location)

/-- A file that can be read and that either can be analysed and has no import that leads nowhere,
or may have faults. -/
def Usable (setting : Setting) (location : Location) : Prop :=
  ∃ text,
    setting.tree.readAt location = .ok text ∧
      ((∃ source,
          ParsedSource.parse text = .ok source ∧
          ∀ declaration ∈ source.imports, ∀ reason,
            setting.resolver.resolve setting.tree location.path declaration.module ≠
              .missing reason) ∨
        setting.isLenient location = true)

theorem missing?_eq_none_iff
    {setting : Setting} {location : Location} {declaration : ImportDeclaration} :
    setting.missing? location declaration = none ↔
      ∀ reason,
        setting.resolver.resolve setting.tree location.path declaration.module ≠
          .missing reason := by
  unfold missing?
  split <;> simp_all

/-- A file has no fault if and only if it is in the language and can be used. -/
theorem fault?_eq_none_iff {setting : Setting} {location : Location} :
    setting.fault? location = none ↔
      Language.ofPath location.path = .python ∧ setting.Usable location := by
  unfold fault? Usable
  by_cases python : Language.ofPath location.path = .python
  · rw [if_neg (not_not.mpr python)]
    cases readable : setting.tree.readAt location with
    | error error => simp
    | ok text =>
        by_cases lenient : setting.isLenient location = true
        · simp [python, lenient]
        · cases analysed : ParsedSource.parse text with
          | error error => simp [lenient, analysed]
          | ok source =>
              simp only [lenient, analysed, Bool.false_eq_true, if_false,
                List.findSome?_eq_none_iff, missing?_eq_none_iff, python, true_and, or_false]
              constructor
              · intro none
                exact ⟨text, rfl, source, analysed, none⟩
              · rintro ⟨same, sameText, other, otherAnalysed, none⟩
                rw [← Except.ok.inj sameText, analysed] at otherAnalysed
                rw [Except.ok.inj otherAnalysed]
                exact none
  · rw [if_pos python]
    simp [python]

/-! ## Loading a file -/

/-- What an import amounts to: an error if it leads nowhere and must not, and otherwise the module
file it leads to, if any. -/
theorem dependency_eq
    (setting : Setting) (location : Location) (lenient : Bool)
    (declaration : ImportDeclaration) :
    (∃ error,
      setting.dependency location lenient declaration = .error error ∧
      lenient = false ∧
      setting.missing? location declaration = some error) ∨
    ∃ found remarks,
      setting.dependency location lenient declaration = .ok (found, remarks) ∧
      (lenient = true ∨ setting.missing? location declaration = none) ∧
      setting.targetsOf location [declaration] = (found.map (·.target)).toList := by
  unfold dependency missing? targetsOf
  cases resolution :
    setting.resolver.resolve setting.tree location.path declaration.module with
  | library target =>
      right
      exact ⟨_, _, rfl, Or.inr rfl, by simp [resolution]⟩
  | foreign =>
      right
      exact ⟨_, _, rfl, Or.inr rfl, by simp [resolution]⟩
  | missing reason =>
      cases lenient with
      | true =>
          right
          exact ⟨_, _, rfl, Or.inl rfl, by simp [resolution]⟩
      | false =>
          left
          exact ⟨_, rfl, rfl, rfl⟩

theorem targetsOf_cons
    (setting : Setting) (location : Location) (declaration : ImportDeclaration)
    (declarations : List ImportDeclaration) :
    setting.targetsOf location (declaration :: declarations) =
      setting.targetsOf location [declaration] ++ setting.targetsOf location declarations := by
  rw [← List.singleton_append, targetsOf, List.filterMap_append]
  rfl

/-- The imports of a file fail with the first one that leads nowhere and must not, and otherwise
amount to the module files they lead to. -/
theorem dependencies_eq
    (setting : Setting) (location : Location) (lenient : Bool) :
    ∀ imports : List ImportDeclaration,
      (∃ remarks error,
        setting.dependencies location lenient imports = (remarks, .error error) ∧
        lenient = false ∧
        imports.findSome? (setting.missing? location) = some error) ∨
      ∃ remarks settled,
        setting.dependencies location lenient imports = (remarks, .ok settled) ∧
        (lenient = true ∨ imports.findSome? (setting.missing? location) = none) ∧
        (settled.filterMap (·.2)).map (·.target) = setting.targetsOf location imports
  | [] => by
      right
      exact ⟨[], [], rfl, Or.inr rfl, rfl⟩
  | declaration :: declarations => by
      unfold dependencies
      rcases setting.dependency_eq location lenient declaration with
        ⟨error, failed, strict, isMissing⟩ | ⟨found, remarks, settledHere, notMissing, target⟩
      · left
        rw [failed]
        exact ⟨[], error, rfl, strict, by rw [List.findSome?_cons, isMissing]⟩
      · rw [settledHere]
        rcases setting.dependencies_eq location lenient declarations with
          ⟨more, error, failed, strict, isMissing⟩ | ⟨more, settled, done, notMissingLater, rest⟩
        · left
          have here : setting.missing? location declaration = none := by
            simpa [strict] using notMissing
          rw [failed]
          exact ⟨_, error, rfl, strict, by rw [List.findSome?_cons, here]; exact isMissing⟩
        · right
          rw [done]
          refine ⟨_, _, rfl, ?_, ?_⟩
          · rcases notMissing with lenient | here
            · exact Or.inl lenient
            · rw [List.findSome?_cons, here]
              exact notMissingLater
          · rw [targetsOf_cons, target, ← rest]
            cases found <;> rfl

/-- Loading a file fails with its fault, or gives a module that depends on what the imports of the
file lead to. -/
theorem load_eq
    (setting : Setting) (id : Nat) (location : Location) (isMain : Bool) :
    (∃ remarks error,
      setting.load id location isMain = (remarks, .error error) ∧
      setting.fault? location = some error) ∨
    ∃ remarks module,
      setting.load id location isMain = (remarks, .ok module) ∧
      setting.fault? location = none ∧
      module.dependencies.map (·.target) = setting.targets location := by
  unfold load fault? targets FileTree.parsedAt?
  by_cases python : Language.ofPath location.path = .python
  · rw [if_neg (not_not.mpr python), if_neg (not_not.mpr python)]
    cases readable : setting.tree.readAt location with
    | error error =>
        left
        exact ⟨_, _, rfl, rfl⟩
    | ok text =>
        dsimp only
        cases analysed : ParsedSource.parse text with
        | error error =>
            cases lenient : setting.isLenient location with
            | true =>
                right
                exact ⟨_, _, rfl, rfl, rfl⟩
            | false =>
                left
                exact ⟨_, _, rfl, rfl⟩
        | ok source =>
            dsimp only
            unfold plan
            rcases setting.dependencies_eq location (setting.isLenient location)
              source.imports with
              ⟨remarks, error, failed, strict, isMissing⟩ |
                ⟨remarks, settled, done, notMissing, targets⟩
            · left
              rw [failed, strict]
              exact ⟨_, _, rfl, isMissing⟩
            · right
              rw [done]
              refine ⟨_, _, rfl, ?_, targets⟩
              rcases notMissing with lenient | none
              · rw [lenient]
                rfl
              · split
                · rfl
                · exact none
  · left
    rw [if_pos python, if_pos python]
    exact ⟨_, _, rfl, rfl⟩

/-! ## Files that can be reached -/

/-- The files that can be reached from a main file by following imports. -/
inductive Reachable (setting : Setting) (main : Location) : Location → Prop
  | main : Reachable setting main main
  | follow {location target : Location} :
      Reachable setting main location →
      target ∈ setting.targets location →
      Reachable setting main target

/-- The number of files of the tree that are not among some locations. -/
def unseen (setting : Setting) (seen : List Location) : Nat :=
  setting.tree.files.countP fun file => file.1 ∉ seen

theorem unseen_cons_le
    (setting : Setting) (seen : List Location) (location : Location) :
    setting.unseen (location :: seen) ≤ setting.unseen seen := by
  apply List.countP_mono_left
  intro file _ notSeen
  rw [decide_eq_true_eq, List.mem_cons, not_or] at notSeen
  exact decide_eq_true notSeen.2

theorem unseen_cons_lt
    {setting : Setting} {seen : List Location} {location : Location}
    (unknown : location ∉ seen) (held : setting.tree.lacks location = false) :
    setting.unseen (location :: seen) < setting.unseen seen := by
  obtain ⟨content, inFiles⟩ := FileTree.exists_mem_files held
  refine countP_lt_countP ?_ inFiles ?_ ?_
  · intro file notSeen
    rw [decide_eq_true_eq, List.mem_cons, not_or] at notSeen
    exact decide_eq_true notSeen.2
  · exact decide_eq_true unknown
  · simp

/-- The imports of a file lead to files of the tree. -/
theorem lacks_of_mem_targets
    {setting : Setting} {location target : Location}
    (imported : target ∈ setting.targets location) :
    setting.tree.lacks target = false := by
  unfold targets at imported
  split at imported
  next source _ =>
    obtain ⟨declaration, _, isTarget⟩ := List.mem_filterMap.mp imported
    split at isTarget
    next found resolved =>
      rw [← Option.some.inj isTarget]
      exact Resolver.lacks_of_resolve resolved
    next => simp at isTarget
    next => simp at isTarget
  next => simp at imported

/-- Locations that are pending and at which there is no file are never added. -/
theorem countP_lacks_targets_append
    (setting : Setting) (location : Location) (pending : List Location) :
    (setting.targets location ++ pending).countP setting.tree.lacks =
      pending.countP setting.tree.lacks := by
  have noTarget : (setting.targets location).countP setting.tree.lacks = 0 := by
    rw [List.countP_eq_zero]
    intro target imported
    simp [lacks_of_mem_targets imported]
  rw [List.countP_append, noTarget, Nat.zero_add]

/-- The files that are met if imports are followed depth first and in order, from pending files on
and apart from those seen before. -/
def traversal (setting : Setting) (seen : List Location) : List Location → List Location
  | [] => []
  | location :: pending =>
      if location ∈ seen then
        setting.traversal seen pending
      else
        location :: setting.traversal (location :: seen) (setting.targets location ++ pending)
termination_by pending =>
  (setting.unseen seen + pending.countP setting.tree.lacks, pending.length)
decreasing_by
  · apply Prod.Lex.right'
    · rw [List.countP_cons]
      omega
    · simp
  next unknown =>
    apply Prod.Lex.left
    rw [countP_lacks_targets_append, List.countP_cons]
    cases held : setting.tree.lacks location with
    | true =>
        have noMore := setting.unseen_cons_le seen location
        simp only [if_true]
        omega
    | false =>
        have fewer := unseen_cons_lt unknown held
        simp only [Bool.false_eq_true, if_false]
        omega

theorem traversal_cons_of_mem
    {setting : Setting} {seen pending : List Location} {location : Location}
    (known : location ∈ seen) :
    setting.traversal seen (location :: pending) = setting.traversal seen pending := by
  rw [traversal, if_pos known]

theorem traversal_cons_of_not_mem
    {setting : Setting} {seen pending : List Location} {location : Location}
    (unknown : location ∉ seen) :
    setting.traversal seen (location :: pending) =
      location :: setting.traversal (location :: seen) (setting.targets location ++ pending) := by
  rw [traversal, if_neg unknown]

/-- What is met from a file with imports that lead to one other file, from which nothing is
imported. -/
theorem traversal_eq_pair
    {setting : Setting} {main library : Location}
    (distinct : main ≠ library) (mainTargets : setting.targets main = [library])
    (noTargets : setting.targets library = []) :
    setting.traversal [] [main] = [main, library] := by
  rw [traversal_cons_of_not_mem (by simp), mainTargets, List.append_nil,
    traversal_cons_of_not_mem (by simpa using distinct.symm), noTargets, List.nil_append, traversal]

/-- Only what can be reached is met. -/
theorem reachable_of_mem_traversal
    {setting : Setting} {main location : Location} (seen pending : List Location)
    (reachable : ∀ other ∈ pending, setting.Reachable main other)
    (met : location ∈ setting.traversal seen pending) :
    setting.Reachable main location := by
  fun_induction traversal setting seen pending with
  | case1 => simp at met
  | case2 seen head pending known inductionHypothesis =>
      exact inductionHypothesis (fun other member => reachable other (by simp [member])) met
  | case3 seen head pending unknown inductionHypothesis =>
      have headReachable := reachable head List.mem_cons_self
      rcases List.mem_cons.mp met with rfl | later
      · exact headReachable
      · apply inductionHypothesis ?_ later
        intro other member
        rcases List.mem_append.mp member with target | waiting
        · exact .follow headReachable target
        · exact reachable other (List.mem_cons_of_mem head waiting)

/-- What is pending is met unless it was seen before, and with a file that is met the files that
its imports lead to. -/
theorem mem_traversal
    {setting : Setting} (seen pending : List Location) :
    (∀ location ∈ pending, location ∈ seen ∨ location ∈ setting.traversal seen pending) ∧
    ∀ location ∈ setting.traversal seen pending, ∀ target ∈ setting.targets location,
      target ∈ seen ∨ target ∈ setting.traversal seen pending := by
  fun_induction traversal setting seen pending with
  | case1 => simp
  | case2 seen head pending known inductionHypothesis =>
      refine ⟨?_, inductionHypothesis.2⟩
      intro location member
      rcases List.mem_cons.mp member with rfl | later
      · exact Or.inl known
      · exact inductionHypothesis.1 location later
  | case3 seen head pending unknown inductionHypothesis =>
      obtain ⟨met, closed⟩ := inductionHypothesis
      have regroup {location : Location} {rest : List Location}
          (known : location ∈ head :: seen ∨ location ∈ rest) :
          location ∈ seen ∨ location ∈ head :: rest := by
        simp only [List.mem_cons] at known ⊢
        tauto
      refine ⟨?_, ?_⟩
      · intro location member
        rcases List.mem_cons.mp member with rfl | later
        · exact Or.inr List.mem_cons_self
        · exact regroup (met location (List.mem_append_right _ later))
      · intro location member target imported
        rcases List.mem_cons.mp member with rfl | later
        · exact regroup (met target (List.mem_append_left _ imported))
        · exact regroup (closed location later target imported)

/-- The files that are met from a main file on are those that can be reached from it. -/
theorem mem_traversal_iff_reachable {setting : Setting} {main location : Location} :
    location ∈ setting.traversal [] [main] ↔ setting.Reachable main location := by
  constructor
  · apply reachable_of_mem_traversal
    intro other member
    rw [List.mem_singleton.mp member]
    exact .main
  · obtain ⟨met, closed⟩ := setting.mem_traversal [] [main]
    intro reachable
    induction reachable with
    | main => simpa using met main List.mem_cons_self
    | follow _ imported inductionHypothesis =>
        simpa using closed _ inductionHypothesis _ imported

/-- Every file is met once. -/
theorem nodup_traversal
    {setting : Setting} (seen pending : List Location) :
    (setting.traversal seen pending).Nodup ∧
      ∀ location ∈ setting.traversal seen pending, location ∉ seen := by
  fun_induction traversal setting seen pending with
  | case1 => simp
  | case2 seen head pending known inductionHypothesis => exact inductionHypothesis
  | case3 seen head pending unknown inductionHypothesis =>
      obtain ⟨nodup, fresh⟩ := inductionHypothesis
      refine ⟨List.nodup_cons.mpr ⟨?_, nodup⟩, ?_⟩
      · intro again
        exact fresh head again List.mem_cons_self
      · intro location member known
        rcases List.mem_cons.mp member with rfl | later
        · exact unknown known
        · exact fresh location later (List.mem_cons_of_mem head known)

/-! ## Files that imports lead to -/

theorem not_mem_of_ofExtension
    {extension : String} (python : Language.ofExtension extension = .python) :
    extension.toList ≠ [] ∧ '/' ∉ extension.toList ∧ '.' ∉ extension.toList := by
  unfold Language.ofExtension at python
  split at python
  next lowered =>
    have letters :
        ∀ character ∈ extension.toList, character.toLower ∈ ['p', 'y', 'w'] := by
      intro character member
      have inLowered : character.toLower ∈ extension.toList.map Char.toLower :=
        List.mem_map_of_mem member
      rcases List.mem_cons.mp lowered with py | pyw
      · rw [py] at inLowered
        revert inLowered
        simp
        tauto
      · rw [List.mem_singleton.mp pyw] at inLowered
        simpa using inLowered
    refine ⟨?_, ?_, ?_⟩
    · intro empty
      rw [empty] at lowered
      simp at lowered
    · intro slash
      have := letters '/' slash
      revert this
      decide
    · intro dot
      have := letters '.' dot
      revert this
      decide
  next => simp at python

/-- An import leads to module files only. -/
theorem exists_moduleFile_of_resolve
    {resolver : Resolver} {tree : FileTree} {importer : Path} {module : ModulePath}
    {target : Location} (leads : resolver.resolve tree importer module = .library target) :
    ∃ base segments,
      tree.isFile (resolver.moduleFile base segments) = true ∧
      target = tree.normalize (resolver.moduleFile base segments) := by
  rw [Resolver.resolve_eq] at leads
  obtain ⟨path, probed, isFile, rfl⟩ := Lookup.exists_probe_of_resolution leads
  obtain ⟨base, segments, rfl⟩ := Resolver.exists_moduleFile_of_mem_probes probed
  exact ⟨base, segments, isFile, rfl⟩

/-- The imports of a file lead to module files only. -/
theorem exists_moduleFile_of_mem_targets
    {setting : Setting} {location target : Location}
    (imported : target ∈ setting.targets location) :
    ∃ base segments,
      setting.tree.isFile (setting.resolver.moduleFile base segments) = true ∧
      target = setting.tree.normalize (setting.resolver.moduleFile base segments) := by
  unfold targets at imported
  split at imported
  next source _ =>
    obtain ⟨declaration, _, isTarget⟩ := List.mem_filterMap.mp imported
    split at isTarget
    next found resolved =>
      rw [← Option.some.inj isTarget]
      exact exists_moduleFile_of_resolve resolved
    next => simp at isTarget
    next => simp at isTarget
  next => simp at imported

theorem isPlain_of_mem_targets
    {setting : Setting} {location target : Location}
    (imported : target ∈ setting.targets location) :
    target.IsPlain := by
  obtain ⟨base, segments, _, rfl⟩ := exists_moduleFile_of_mem_targets imported
  exact setting.tree.isPlain_normalize _

/-- Where there are no links, the imports of a file lead to files in the language. -/
theorem python_of_mem_targets
    {config : MergeConfig} {tree : FileTree} (valid : config.validate tree = .ok ())
    (noLinks : tree.links = []) {location target : Location}
    (imported : target ∈ Setting.targets ⟨config, tree⟩ location) :
    Language.ofPath target.path = .python := by
  obtain ⟨base, segments, isFile, rfl⟩ := exists_moduleFile_of_mem_targets imported
  have python := (MergeConfig.isValid_of_validate valid).python
  obtain ⟨nonempty, noSlash, noDot⟩ := not_mem_of_ofExtension python
  have extension := FileTree.extension?_normalize noLinks isFile nonempty noSlash noDot
  unfold Language.ofPath
  rw [Resolver.moduleFile, extension]
  simpa [resolver, Resolver.ofConfig] using python

/-- Where there are no links, a file that can be reached is the main file or in the language. -/
theorem Reachable.eq_main_or_python
    {config : MergeConfig} {tree : FileTree} (valid : config.validate tree = .ok ())
    (noLinks : tree.links = []) {main location : Location}
    (reachable : Reachable ⟨config, tree⟩ main location) :
    location = main ∨ Language.ofPath location.path = .python := by
  cases reachable with
  | main => exact Or.inl rfl
  | follow _ imported => exact Or.inr (python_of_mem_targets valid noLinks imported)

end Setting

/-! ## A walk meets files in this order -/

namespace Walk

/-- A walk has met the files seen, and the imports it has still to follow lead to the files
pending. -/
structure Follows (walk : Walk) (seen pending : List Location) : Prop where
  mem_keys_iff : ∀ location : Location, location.IsPlain →
    (location.path.components ∈ walk.registry.keys ↔ location ∈ seen)
  pending_eq : walk.frames.flatMap (·.remaining.map (·.target)) = pending
  plain : ∀ location ∈ pending, location.IsPlain

/-- The first fault of a file that a walk is still to meet. -/
def Meets (setting : Setting) (first : Option MergeError) (walk : Walk) : Prop :=
  ∃ seen pending,
    walk.Follows seen pending ∧
    (setting.traversal seen pending).findSome? setting.fault? = first

theorem targets_park (id : Nat) (request : Request) (frames : List Frame) :
    (frames.map (Frame.park id request)).flatMap (·.remaining.map (·.target)) =
      frames.flatMap (·.remaining.map (·.target)) := by
  rw [List.flatMap_map]
  congr 1
  funext frame
  rw [Frame.remaining_park]

/-- What comes next on a walk that has imports to follow. -/
theorem Follows.next
    {walk : Walk} {seen pending : List Location} {frame : Frame} {frames : List Frame}
    {dependency : Dependency} {remaining : List Dependency}
    (follows : walk.Follows seen pending)
    (top : walk.frames = frame :: frames) (ahead : frame.remaining = dependency :: remaining) :
    dependency.target.IsPlain ∧
      ∃ rest,
        pending = dependency.target :: rest ∧
        (walk.onward frame remaining frames).Follows seen rest := by
  have pendingEq := follows.pending_eq
  rw [top, List.flatMap_cons, ahead, List.map_cons, List.cons_append] at pendingEq
  have plain := follows.plain
  rw [← pendingEq] at plain
  refine ⟨plain _ List.mem_cons_self, _, pendingEq.symm, follows.mem_keys_iff, ?_, ?_⟩
  · rfl
  · intro location member
    exact plain location (List.mem_cons_of_mem _ member)

/-- A file that is loaded is seen, and what its imports lead to comes next. -/
theorem Follows.push
    {setting : Setting} {walk : Walk} {seen pending : List Location} {location : Location}
    {id : Nat} {isMain : Bool} {remarks : List Remark} {module : Module}
    (follows : walk.Follows seen pending) (plain : location.IsPlain)
    (unknown : walk.registry.lookup location.path = none)
    (loaded : setting.load id location isMain = (remarks, .ok module))
    (targets : module.dependencies.map (·.target) = setting.targets location)
    (targetsPlain : ∀ target ∈ setting.targets location, target.IsPlain) (request : Request) :
    (walk.push module remarks request).Follows (location :: seen)
      (setting.targets location ++ pending) where
  mem_keys_iff := by
    intro other otherPlain
    have keys :
        (walk.push module remarks request).registry.keys =
          walk.registry.keys ++ [location.path.components] := by
      rw [← Setting.path_of_load loaded] at unknown ⊢
      simp [Walk.push, Registry.register_of_lookup_eq_none unknown]
    rw [keys, List.mem_append, List.mem_singleton, follows.mem_keys_iff other otherPlain,
      List.mem_cons]
    constructor
    · rintro (known | same)
      · exact Or.inr known
      · exact Or.inl (Location.eq_of_components_path_eq otherPlain plain same)
    · rintro (rfl | known)
      · exact Or.inr rfl
      · exact Or.inl known
  pending_eq := by
    rw [← follows.pending_eq, ← targets]
    rfl
  plain := by
    intro other member
    rcases List.mem_append.mp member with target | waiting
    · exact targetsPlain other target
    · exact follows.plain other waiting

/-- Every move takes a file off those that are still to be met if it loads it, and none otherwise.
A file that is loaded has no fault. -/
theorem follows_of_moves
    {setting : Setting} {walk after : Walk} {seen pending : List Location}
    (targetsPlain : ∀ location, ∀ target ∈ setting.targets location, target.IsPlain)
    (follows : walk.Follows seen pending) (moved : Moves setting walk after) :
    ∃ nextSeen nextPending,
      after.Follows nextSeen nextPending ∧
      setting.traversal seen pending =
        walk.loading?.toList ++ setting.traversal nextSeen nextPending ∧
      ∀ location, walk.loading? = some location → setting.fault? location = none := by
  cases moved with
  | leave frame frames top finished =>
      have loadsNone := loading?_of_finished top finished
      refine ⟨seen, pending, ⟨?_, ?_, follows.plain⟩, by simp [loadsNone], by simp [loadsNone]⟩
      · intro location plain
        rw [Walk.leave, Registry.keys_markResolved]
        exact follows.mem_keys_iff location plain
      · rw [← follows.pending_eq, top, List.flatMap_cons, finished]
        rfl
  | enter frame frames dependency remaining remarks module top ahead unknown loaded =>
      obtain ⟨plain, rest, rfl, onward⟩ := follows.next top ahead
      have loads := loading?_of_unknown top ahead unknown
      have notSeen : dependency.target ∉ seen := by
        rw [← follows.mem_keys_iff _ plain]
        exact Registry.lookup_eq_none_iff.mp unknown
      rcases setting.load_eq walk.registry.states.length dependency.target false with
        ⟨_, _, failed, _⟩ | ⟨otherRemarks, otherModule, otherLoaded, faultless, targets⟩
      · rw [loaded] at failed
        simp at failed
      · rw [loaded] at otherLoaded
        obtain ⟨rfl, sameModule⟩ := Prod.mk.inj otherLoaded
        obtain rfl := Except.ok.inj sameModule
        refine ⟨_, _, onward.push plain unknown loaded targets (targetsPlain _)
          dependency.request, ?_, ?_⟩
        · rw [Setting.traversal_cons_of_not_mem notSeen, loads]
          rfl
        · intro location same
          rw [loads] at same
          rw [← Option.some.inj same]
          exact faultless
  | park frame frames dependency remaining id top ahead known waiting =>
      obtain ⟨plain, rest, rfl, onward⟩ := follows.next top ahead
      have loadsNone := loading?_of_known top ahead known
      have isSeen : dependency.target ∈ seen := by
        rw [← follows.mem_keys_iff _ plain]
        exact List.mem_of_getElem? (Registry.getElem?_keys_of_lookup known)
      rw [Setting.traversal_cons_of_mem isSeen]
      refine ⟨seen, rest, ⟨onward.mem_keys_iff, ?_, onward.plain⟩, by simp [loadsNone],
        by simp [loadsNone]⟩
      rw [← onward.pending_eq]
      exact targets_park id dependency.request _
  | serve frame frames dependency remaining id top ahead known settled =>
      obtain ⟨plain, rest, rfl, onward⟩ := follows.next top ahead
      have loadsNone := loading?_of_known top ahead known
      have isSeen : dependency.target ∈ seen := by
        rw [← follows.mem_keys_iff _ plain]
        exact List.mem_of_getElem? (Registry.getElem?_keys_of_lookup known)
      rw [Setting.traversal_cons_of_mem isSeen]
      exact ⟨seen, rest, ⟨onward.mem_keys_iff, onward.pending_eq, onward.plain⟩,
        by simp [loadsNone], by simp [loadsNone]⟩

/-- Every move keeps the first fault that is still to be met. -/
theorem meets_of_moves
    {setting : Setting} {first : Option MergeError} {walk after : Walk}
    (targetsPlain : ∀ location, ∀ target ∈ setting.targets location, target.IsPlain)
    (meets : walk.Meets setting first) (moved : Moves setting walk after) :
    after.Meets setting first := by
  obtain ⟨seen, pending, follows, rfl⟩ := meets
  obtain ⟨nextSeen, nextPending, nextFollows, met, faultless⟩ :=
    follows_of_moves targetsPlain follows moved
  refine ⟨nextSeen, nextPending, nextFollows, ?_⟩
  have noneLoaded : walk.loading?.toList.findSome? setting.fault? = none := by
    rw [List.findSome?_eq_none_iff]
    intro location member
    exact faultless location (Option.mem_toList.mp member)
  rw [met, List.findSome?_append, noneLoaded, Option.none_or]

/-- A walk that starts at a loaded main file has met this file, and follows its imports. -/
theorem follows_start
    {setting : Setting} {main : Location} {remarks : List Remark} {module : Module}
    (mainPlain : main.IsPlain)
    (targetsPlain : ∀ location, ∀ target ∈ setting.targets location, target.IsPlain)
    (loaded : setting.load 0 main true = (remarks, .ok module)) :
    ((Walk.empty setting).push module remarks .main).Follows [main] (setting.targets main) := by
  have start : (Walk.empty setting).Follows [] [] := by
    refine ⟨?_, rfl, by simp⟩
    intro location _
    simp [Walk.empty, Registry.empty, Registry.keys]
  rcases setting.load_eq 0 main true with
    ⟨_, _, failed, _⟩ | ⟨otherRemarks, otherModule, otherLoaded, _, targets⟩
  · rw [loaded] at failed
    simp at failed
  · rw [loaded] at otherLoaded
    obtain ⟨rfl, sameModule⟩ := Prod.mk.inj otherLoaded
    obtain rfl := Except.ok.inj sameModule
    simpa using start.push mainPlain rfl loaded targets (targetsPlain main) .main

/-- A run ends with the first fault that was to be met, or comes to its end if there is none. -/
theorem run_of_meets
    {setting : Setting} {first : Option MergeError} {walk : Walk}
    (targetsPlain : ∀ location, ∀ target ∈ setting.targets location, target.IsPlain)
    (meets : walk.Meets setting first) :
    (walk.run setting).2 = first := by
  obtain ⟨last, lastMeets, ⟨finished, ended⟩ | ⟨remarks, error, stuck, ended⟩⟩ :=
    run_outcome (fun _ _ => meets_of_moves targetsPlain) meets
  · obtain ⟨seen, pending, follows, rfl⟩ := lastMeets
    have nothing : pending = [] := by
      rw [← follows.pending_eq, finished]
      rfl
    rw [ended, nothing, Setting.traversal]
    rfl
  · obtain ⟨seen, pending, follows, rfl⟩ := lastMeets
    obtain ⟨frame, frames, dependency, remaining, top, ahead, unknown, failed⟩ := stuck
    obtain ⟨plain, rest, rfl, _⟩ := follows.next top ahead
    have notSeen : dependency.target ∉ seen := by
      rw [← follows.mem_keys_iff _ plain]
      exact Registry.lookup_eq_none_iff.mp unknown
    rcases setting.load_eq last.registry.states.length dependency.target false with
      ⟨otherRemarks, otherError, otherFailed, fault⟩ | ⟨_, _, loaded, _⟩
    · rw [failed] at otherFailed
      obtain ⟨rfl, sameError⟩ := Prod.mk.inj otherFailed
      obtain rfl := Except.error.inj sameError
      rw [ended, Setting.traversal_cons_of_not_mem notSeen, List.findSome?_cons, fault]
    · rw [failed] at loaded
      simp at loaded

end Walk

/-! ## The result of a merge -/

namespace Setting

/-- The fault of the first file with one, among the files that are met from a main file on. -/
def firstFault? (setting : Setting) (main : Location) : Option MergeError :=
  (setting.traversal [] [main]).findSome? setting.fault?

theorem firstFault?_eq
    (setting : Setting) (main : Location) :
    setting.firstFault? main =
      (setting.fault? main).or
        ((setting.traversal [main] (setting.targets main)).findSome? setting.fault?) := by
  rw [firstFault?, traversal_cons_of_not_mem (by simp), List.append_nil, List.findSome?_cons]
  cases setting.fault? main <;> rfl

/-- A merge gives a text if no file that is met has a fault, and the first fault otherwise. -/
theorem mergeAt_eq
    {setting : Setting} {main : Location} (mainPlain : main.IsPlain)
    (targetsPlain : ∀ location, ∀ target ∈ setting.targets location, target.IsPlain) :
    (∃ remarks outcome,
      setting.mergeAt main = (remarks, .ok outcome) ∧ setting.firstFault? main = none) ∨
    ∃ remarks error,
      setting.mergeAt main = (remarks, .error error) ∧
      setting.firstFault? main = some error := by
  rw [firstFault?_eq]
  unfold mergeAt
  rcases setting.load_eq 0 main true with
    ⟨remarks, error, failed, fault⟩ | ⟨remarks, module, loaded, faultless, _⟩
  · right
    rw [failed, fault]
    exact ⟨_, _, rfl, rfl⟩
  · rw [loaded, faultless, Option.none_or]
    dsimp only
    by_cases verbatim : module.isVerbatim = true
    · left
      have noTargets : setting.targets main = [] := by
        unfold Setting.targets
        rw [← parsed_of_load loaded, Option.isNone_iff_eq_none.mp verbatim]
      rw [if_pos verbatim, noTargets, traversal]
      exact ⟨_, _, rfl, rfl⟩
    · rw [if_neg verbatim]
      have started := Walk.follows_start mainPlain targetsPlain loaded
      have ended := Walk.run_of_meets targetsPlain ⟨_, _, started, rfl⟩
      rw [← ended]
      split
      next walk error ran =>
        right
        exact ⟨_, error, rfl, by rw [ran]⟩
      next walk ran =>
        left
        exact ⟨_, _, rfl, by rw [ran]⟩

/-- No file that is met has a fault if and only if every file that can be reached is in the language
and can be used. -/
theorem firstFault?_eq_none_iff (setting : Setting) (main : Location) :
    setting.firstFault? main = none ↔
      ∀ location, setting.Reachable main location →
        Language.ofPath location.path = .python ∧ setting.Usable location := by
  rw [firstFault?, List.findSome?_eq_none_iff]
  simp only [mem_traversal_iff_reachable, fault?_eq_none_iff]

/-- Where there are no links, every file that can be reached is in the language if the main file
is. -/
theorem forall_reachable_iff
    {config : MergeConfig} {tree : FileTree} (valid : config.validate tree = .ok ())
    (noLinks : tree.links = []) {main : Location} :
    (∀ location, Reachable ⟨config, tree⟩ main location →
        Language.ofPath location.path = .python ∧ Usable ⟨config, tree⟩ location) ↔
      Language.ofPath main.path = .python ∧
        ∀ location, Reachable ⟨config, tree⟩ main location →
          Usable ⟨config, tree⟩ location := by
  constructor
  · intro faultless
    exact ⟨(faultless main .main).1, fun location reachable => (faultless location reachable).2⟩
  · rintro ⟨mainPython, usable⟩ location reachable
    refine ⟨?_, usable location reachable⟩
    rcases reachable.eq_main_or_python valid noLinks with rfl | python
    · exact mainPython
    · exact python

end Setting

/-- With a valid configuration a merge ends with the first fault, or succeeds if there is none. -/
theorem merge_eq_firstFault?
    {config : MergeConfig} {tree : FileTree} (valid : config.validate tree = .ok ())
    (file : Path) :
    (∃ remarks outcome,
      merge config tree file = (remarks, .ok outcome) ∧
      Setting.firstFault? ⟨config, tree⟩ (tree.normalize file) = none) ∨
    ∃ remarks error,
      merge config tree file = (remarks, .error error) ∧
      Setting.firstFault? ⟨config, tree⟩ (tree.normalize file) = some error := by
  rw [merge, valid]
  exact Setting.mergeAt_eq (tree.isPlain_normalize file)
    fun _ _ imported => Setting.isPlain_of_mem_targets imported

/-- With a valid configuration a merge succeeds if and only if every file that can be reached from
the main file, after all links, is in the language and can be used; without links, only the main
file has to be asked for its language.  Otherwise the merge gives the fault of the first file with
one, in the order in which the files that can be reached are met depth first. -/
theorem merge_succeeds_or_first_fault
    {config : MergeConfig} {tree : FileTree} (valid : config.validate tree = .ok ())
    (file : Path) :
    ((∃ remarks outcome, merge config tree file = (remarks, .ok outcome)) ↔
      ∀ location, Setting.Reachable ⟨config, tree⟩ (tree.normalize file) location →
        Language.ofPath location.path = .python ∧ Setting.Usable ⟨config, tree⟩ location) ∧
    (tree.links = [] →
      ((∃ remarks outcome, merge config tree file = (remarks, .ok outcome)) ↔
        Language.ofPath (tree.normalize file).path = .python ∧
          ∀ location, Setting.Reachable ⟨config, tree⟩ (tree.normalize file) location →
            Setting.Usable ⟨config, tree⟩ location)) ∧
    (∀ error,
      (∃ remarks, merge config tree file = (remarks, .error error)) ↔
        (Setting.traversal ⟨config, tree⟩ [] [tree.normalize file]).findSome?
          (Setting.fault? ⟨config, tree⟩) = some error) ∧
    (Setting.traversal ⟨config, tree⟩ [] [tree.normalize file]).Nodup ∧
    ∀ location,
      location ∈ Setting.traversal ⟨config, tree⟩ [] [tree.normalize file] ↔
        Setting.Reachable ⟨config, tree⟩ (tree.normalize file) location := by
  have result := merge_eq_firstFault? valid file
  have succeeds :
      (∃ remarks outcome, merge config tree file = (remarks, .ok outcome)) ↔
        Setting.firstFault? ⟨config, tree⟩ (tree.normalize file) = none := by
    rcases result with ⟨remarks, outcome, ended, none⟩ | ⟨remarks, error, ended, fault⟩
    · simp [ended, none]
    · simp [ended, fault]
  rw [succeeds, Setting.firstFault?_eq_none_iff]
  refine ⟨Iff.rfl, fun noLinks => Setting.forall_reachable_iff valid noLinks, ?_,
    (Setting.nodup_traversal [] _).1, fun location => Setting.mem_traversal_iff_reachable⟩
  intro error
  change _ ↔ Setting.firstFault? ⟨config, tree⟩ _ = some error
  rcases result with ⟨remarks, outcome, ended, none⟩ | ⟨remarks, other, ended, fault⟩
  · simp [ended, none]
  · simp [ended, fault]

/-- A main file that imports a module, which imports a module that does not exist. -/
def brokenTree : FileTree :=
  ((FileTree.empty ⟨["w".toList]⟩).put ⟨["w".toList, "main.py".toList]⟩
    (.text "from lib.a import f\n".toList)).put
    ⟨["w".toList, "contest".toList, "lib".toList, "a.py".toList]⟩
    (.text "x = 1\nimport lib.b\n".toList)

theorem merge_brokenTree_fails :
    MergeConfig.validate {} brokenTree = .ok () ∧
      ∃ remarks,
        merge {} brokenTree (.ofString "main.py") =
          (remarks,
            .error (.missingLibrary "lib.b"
              ⟨["w".toList, "contest".toList, "lib".toList, "a.py".toList]⟩ 2
              (.noFile (.ofString "/w/contest/lib/b.py")))) := by
  have valid : MergeConfig.validate {} brokenTree = .ok () := by decide +kernel
  have facts : ∃ main library : Location,
      brokenTree.normalize (.ofString "main.py") = main ∧
      main ≠ library ∧
      Setting.targets ⟨{}, brokenTree⟩ main = [library] ∧
      Setting.targets ⟨{}, brokenTree⟩ library = [] ∧
      Setting.fault? ⟨{}, brokenTree⟩ main = none ∧
      Setting.fault? ⟨{}, brokenTree⟩ library =
        some (.missingLibrary "lib.b"
          ⟨["w".toList, "contest".toList, "lib".toList, "a.py".toList]⟩ 2
          (.noFile (.ofString "/w/contest/lib/b.py"))) :=
    ⟨⟨["w".toList, "main.py".toList]⟩,
      ⟨["w".toList, "contest".toList, "lib".toList, "a.py".toList]⟩, by decide +kernel⟩
  obtain ⟨main, library, isMain, distinct, mainTargets, noTargets, mainFaultless, fault⟩ := facts
  refine ⟨valid, ((merge_succeeds_or_first_fault valid (.ofString "main.py")).2.2.1 _).mpr ?_⟩
  rw [isMain, Setting.traversal_eq_pair distinct mainTargets noTargets, List.findSome?_cons,
    mainFaultless, List.findSome?_cons, fault]

/-- A main file that imports a module, whose file is a link to notes beside the main file; and a
main file on its own. -/
def linkedTree : FileTree :=
  let files : List (List String × String) :=
    [(["w", "main.py"], "from lib.a import f\n"), (["w", "notes.txt"], "def f(): pass\n"),
      (["w", "solo.py"], "x = 1\n")]
  let written : FileTree := files.foldl
    (fun tree file => tree.put ⟨file.1.map (·.toList)⟩ (.text file.2.toList))
    (.empty ⟨["w".toList]⟩)
  written.putLink ⟨["w", "contest", "lib", "a.py"].map (·.toList)⟩ (.ofString "../../notes.txt")

/-- All files that can be reached from a main file in the language can be used, and yet the merge
fails: one of them is in another language. -/
theorem merge_linkedTree_unsupported :
    MergeConfig.validate {} linkedTree = .ok () ∧
      (Language.ofPath (linkedTree.normalize (.ofString "main.py")).path = .python ∧
        (∀ location,
          Setting.Reachable ⟨{}, linkedTree⟩ (linkedTree.normalize (.ofString "main.py"))
              location →
            Setting.Usable ⟨{}, linkedTree⟩ location) ∧
        ∃ remarks,
          merge {} linkedTree (.ofString "main.py") =
            (remarks, .error (.unsupportedFile ⟨["w".toList, "notes.txt".toList]⟩))) ∧
      Language.ofPath (.ofString "solo.py/x/..") = .unknown ∧
      ∃ remarks outcome,
        merge {} linkedTree (.ofString "solo.py/x/..") = (remarks, .ok outcome) := by
  have valid : MergeConfig.validate {} linkedTree = .ok () := by decide +kernel
  have facts : ∃ main notes solo : Location,
      linkedTree.normalize (.ofString "main.py") = main ∧
      linkedTree.normalize (.ofString "solo.py/x/..") = solo ∧
      notes = ⟨["w".toList, "notes.txt".toList]⟩ ∧
      main ≠ notes ∧
      Setting.targets ⟨{}, linkedTree⟩ main = [notes] ∧
      Setting.targets ⟨{}, linkedTree⟩ notes = [] ∧
      Setting.targets ⟨{}, linkedTree⟩ solo = [] ∧
      Setting.fault? ⟨{}, linkedTree⟩ main = none ∧
      Setting.fault? ⟨{}, linkedTree⟩ notes = some (.unsupportedFile notes) ∧
      Setting.fault? ⟨{}, linkedTree⟩ solo = none ∧
      linkedTree.readAt notes = .ok "def f(): pass\n".toList ∧
      (linkedTree.parsedAt? notes).map (·.imports) = some [] :=
    ⟨⟨["w".toList, "main.py".toList]⟩, ⟨["w".toList, "notes.txt".toList]⟩,
      ⟨["w".toList, "solo.py".toList]⟩, by decide +kernel⟩
  obtain ⟨main, notes, solo, isMain, isSolo, isNotes, distinct, mainTargets, noTargets,
    soloTargets, mainFaultless, fault, soloFaultless, readable, noImports⟩ := facts
  have mainUsable := Setting.fault?_eq_none_iff.mp mainFaultless
  have notesUsable : Setting.Usable ⟨{}, linkedTree⟩ notes := by
    obtain ⟨source, parsed, none⟩ := Option.map_eq_some_iff.mp noImports
    exact ⟨_, readable,
      Or.inl ⟨source, FileTree.parse_of_parsedAt? readable parsed, by simp [none]⟩⟩
  have met := Setting.traversal_eq_pair distinct mainTargets noTargets
  refine ⟨valid, ⟨isMain ▸ mainUsable.1, ?_, ?_⟩, by decide +kernel, ?_⟩
  · intro location reachable
    rw [isMain, ← Setting.mem_traversal_iff_reachable, met] at reachable
    rcases List.mem_cons.mp reachable with rfl | rest
    · exact mainUsable.2
    · exact List.mem_singleton.mp rest ▸ notesUsable
  · have first : Setting.firstFault? ⟨{}, linkedTree⟩ main = some (.unsupportedFile notes) := by
      rw [Setting.firstFault?, met, List.findSome?_cons, mainFaultless, List.findSome?_cons, fault]
    rcases merge_eq_firstFault? valid (.ofString "main.py") with
      ⟨_, _, _, none⟩ | ⟨remarks, error, failed, ended⟩
    · rw [isMain, first] at none
      cases none
    · rw [isMain, first] at ended
      obtain rfl := Option.some.inj ended
      exact ⟨remarks, isNotes ▸ failed⟩
  · have noFault : Setting.firstFault? ⟨{}, linkedTree⟩ solo = none := by
      rw [Setting.firstFault?_eq, soloFaultless, soloTargets, Setting.traversal]
      rfl
    rcases merge_eq_firstFault? valid (.ofString "solo.py/x/..") with
      ⟨remarks, outcome, merged, _⟩ | ⟨_, _, _, ended⟩
    · exact ⟨remarks, outcome, merged⟩
    · rw [isSolo, noFault] at ended
      cases ended

end Inliner
