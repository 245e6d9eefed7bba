import Inliner.Proofs.Selection.RunOrder

/-!
# Where names are read

An identifier of a syntax tree is named by the path that leads to it.  Such a path tells whether
the identifier is read: not as the name of an attribute, of an argument or of a definition, not as
a target, and of the parameters only in their default values and annotations.  A parameter hides
its name wherever the path leads through the body of its function.

The names that a statement reads are exactly those for which there is such a path, and it reads
them while it runs itself exactly if the path enters no body.  The second part is about collecting
them in one pass, with one stack for the parameters that hide names.
-/

namespace Inliner.Syntax

/-! ## Paths -/

/-- The way from a piece of code to a part of it. -/
inductive Step where
  | first
  | second
  | parts
  | label
  | target
  | typeParameters
  | parameters
  | binder
  | reads
  | body
  | part
  | other
deriving DecidableEq, Repr

namespace Step

/-- The step stays in a row of pieces. -/
def InRow (step : Step) : Prop :=
  step = .first ∨ step = .second

/-- The step stays in a pattern. -/
def InPattern (step : Step) : Prop :=
  step.InRow ∨ step = .parts

end Step

namespace Tree

/-- The part of a piece of code that a step leads to. -/
def part? : Step → Tree → Option Tree
  | .first, .seq first _ => some first
  | .second, .seq _ second => some second
  | .part, .attribute object _ => some object
  | .label, .attribute _ field => some (.name field)
  | .part, .subscript value _ => some value
  | .other, .subscript _ indices => some indices
  | .label, .keyword label _ => some (.name label)
  | .part, .keyword _ value => some value
  | .parts, .pattern parts => some parts
  | .target, .binding _ target _ => some target
  | .part, .binding _ _ rest => some rest
  | .part, .update target _ => some target
  | .other, .update _ rest => some rest
  | .binder, .parameter binder _ => some binder
  | .reads, .parameter _ reads => some reads
  | .label, .function identifier _ _ _ _ => some (.name identifier)
  | .typeParameters, .function _ typeParameters _ _ _ => some typeParameters
  | .parameters, .function _ _ parameters _ _ => some parameters
  | .part, .function _ _ _ returns _ => some returns
  | .body, .function _ _ _ _ body => some body
  | .parameters, .lambda parameters _ => some parameters
  | .body, .lambda _ body => some body
  | .label, .classDefinition identifier _ => some (.name identifier)
  | .part, .classDefinition _ rest => some rest
  | .part, .decorated decorators _ => some decorators
  | .other, .decorated _ definition => some definition
  | .part, .importing _ identifiers => some identifiers
  | .part, .block statements => some statements
  | _, _ => none

/-- The part of a piece of code that a path leads to. -/
def at? : Tree → List Step → Option Tree
  | tree, [] => some tree
  | tree, step :: path => (tree.part? step).bind (at? · path)

/-- A function has a parameter of this name: an identifier in what one of its parameters binds,
reached through tuples, lists, stars and commas only. -/
def HasParameter (function : Tree) (identifier : String) : Prop :=
  ∃ row binder,
    (∀ step ∈ row, Step.InRow step) ∧
      (∀ step ∈ binder, Step.InPattern step) ∧
        function.at? (.parameters :: row ++ .binder :: binder) = some (.name identifier)

end Tree

/-- A path from a target leads out of its pattern, to something other than a name that it writes. -/
def LeavesPattern (path : List Step) : Prop :=
  ∃ step ∈ path, ¬ Step.InPattern step

/-- A path from a row of parameters leads to the default value or the annotation of one of them. -/
def EntersReads (path : List Step) : Prop :=
  ∃ row rest, path = row ++ .reads :: rest ∧ ∀ step ∈ row, Step.InRow step

/-- A path leads to a place where an identifier is read: it does not name an attribute, an argument
or a definition, stands in no type parameters of a function, is no plain target and none in a
pattern, and belongs to parameters only as a default value or an annotation. -/
structure IsReading (path : List Step) : Prop where
  unlabelled : .label ∉ path
  untyped : .typeParameters ∉ path
  targets : ∀ before after, path = before ++ .target :: after → LeavesPattern after
  parameters : ∀ before after, path = before ++ .parameters :: after → EntersReads after

namespace Tree

/-- A function whose body a path enters has a parameter of this name. -/
def Hides (tree : Tree) (path : List Step) (identifier : String) : Prop :=
  ∃ before after function,
    path = before ++ .body :: after ∧
      tree.at? before = some function ∧ function.HasParameter identifier

/-- A path leads to a place in a tree where a name is read that no parameter hides there. -/
structure Reads (tree : Tree) (path : List Step) (identifier : String) : Prop where
  found : tree.at? path = some (.name identifier)
  reading : IsReading path
  visible : ¬ tree.Hides path identifier

end Tree

/-! ## Paths step by step -/

namespace Role

/-- The step that leads to a piece of code looked at in this way. -/
def entry : Role → List Step
  | .value => []
  | .target => [.target]
  | .parameters => [.parameters]

/-- How the part that a step leads to is looked at; `none` if it is not looked at. -/
def after (role : Role) : Step → Option Role
  | .first | .second => some role
  | .parts => if role = .parameters then none else some role
  | .label | .typeParameters => none
  | .target => if role = .parameters then none else some .target
  | .parameters => if role = .parameters then none else some .parameters
  | .reads => some .value
  | .binder | .body | .part | .other => if role = .parameters then none else some .value

end Role

theorem leavesPattern_cons_iff (step : Step) (path : List Step) :
    LeavesPattern (step :: path) ↔ ¬ Step.InPattern step ∨ LeavesPattern path :=
  List.exists_mem_cons_iff _ step path

theorem entersReads_cons_iff (step : Step) (path : List Step) :
    EntersReads (step :: path) ↔ step = .reads ∨ Step.InRow step ∧ EntersReads path := by
  constructor
  · rintro ⟨row, rest, equal, inRow⟩
    cases row with
    | nil => exact .inl (List.cons.inj equal).1
    | cons head row =>
        obtain ⟨rfl, equalRest⟩ := List.cons.inj equal
        obtain ⟨headInRow, restInRow⟩ := List.forall_mem_cons.mp inRow
        exact .inr ⟨headInRow, row, rest, equalRest, restInRow⟩
  · rintro (rfl | ⟨headInRow, row, rest, rfl, inRow⟩)
    · exact ⟨[], path, rfl, by simp⟩
    · exact ⟨step :: row, rest, rfl, List.forall_mem_cons.mpr ⟨headInRow, inRow⟩⟩

theorem isReading_nil : IsReading [] where
  unlabelled := List.not_mem_nil
  untyped := List.not_mem_nil
  targets before after equal := by simp at equal
  parameters before after equal := by simp at equal

theorem isReading_cons_iff (step : Step) (path : List Step) :
    IsReading (step :: path) ↔
      IsReading path ∧ step ≠ .label ∧ step ≠ .typeParameters ∧
        (step = .target → LeavesPattern path) ∧ (step = .parameters → EntersReads path) := by
  constructor
  · intro reading
    refine ⟨⟨?_, ?_, ?_, ?_⟩, ?_, ?_, ?_, ?_⟩
    · exact fun member => reading.unlabelled (List.mem_cons_of_mem step member)
    · exact fun member => reading.untyped (List.mem_cons_of_mem step member)
    · exact fun before after equal => reading.targets (step :: before) after (by simp [equal])
    · exact fun before after equal => reading.parameters (step :: before) after (by simp [equal])
    · exact fun isLabel => reading.unlabelled (by simp [isLabel])
    · exact fun isTyped => reading.untyped (by simp [isTyped])
    · exact fun isTarget => reading.targets [] path (by simp [isTarget])
    · exact fun isParameters => reading.parameters [] path (by simp [isParameters])
  · rintro ⟨reading, notLabel, notTyped, targets, parameters⟩
    refine ⟨?_, ?_, ?_, ?_⟩
    · exact List.not_mem_cons_of_ne_of_not_mem notLabel.symm reading.unlabelled
    · exact List.not_mem_cons_of_ne_of_not_mem notTyped.symm reading.untyped
    · intro before after equal
      cases before with
      | nil =>
          obtain ⟨isTarget, rfl⟩ := List.cons.inj equal
          exact targets isTarget
      | cons head before => exact reading.targets before after (List.cons.inj equal).2
    · intro before after equal
      cases before with
      | nil =>
          obtain ⟨isParameters, rfl⟩ := List.cons.inj equal
          exact parameters isParameters
      | cons head before => exact reading.parameters before after (List.cons.inj equal).2

theorem not_isReading_entry_of_ne_value
    {role : Role}
    (notValue : role ≠ .value) :
    ¬ IsReading role.entry := by
  cases role with
  | value => exact absurd rfl notValue
  | target =>
      intro reading
      obtain ⟨_, member, _⟩ := reading.targets [] [] rfl
      cases member
  | parameters =>
      intro reading
      obtain ⟨row, rest, equal, _⟩ := reading.parameters [] [] rfl
      simp at equal

/-- The first step of a path tells how the part it leads to is looked at. -/
theorem isReading_entry_cons_iff (role : Role) (step : Step) (path : List Step) :
    IsReading (role.entry ++ step :: path) ↔
      ∃ next, role.after step = some next ∧ IsReading (next.entry ++ path) := by
  cases role with
  | value =>
      cases step <;>
        simp [Role.entry, Role.after, isReading_cons_iff]
  | target =>
      cases step <;>
        simp [Role.entry, Role.after, isReading_cons_iff, leavesPattern_cons_iff, Step.InPattern,
          Step.InRow]
  | parameters =>
      cases step <;>
        simp [Role.entry, Role.after, isReading_cons_iff, entersReads_cons_iff, Step.InRow]

/-! ## Parameters -/

namespace Tree

theorem mem_boundNames_of_at?
    {identifier : String} :
    ∀ {path : List Step} {tree : Tree},
      (∀ step ∈ path, Step.InPattern step) →
        tree.at? path = some (.name identifier) → identifier ∈ tree.boundNames
  | [], tree, _, found => by
      obtain rfl := Option.some.inj found
      exact List.mem_singleton_self identifier
  | step :: path, tree, inPattern, found => by
      obtain ⟨headInPattern, restInPattern⟩ := List.forall_mem_cons.mp inPattern
      obtain ⟨part, isPart, foundInPart⟩ := Option.bind_eq_some_iff.mp found
      have inPart := mem_boundNames_of_at? restInPattern foundInPart
      rcases headInPattern with (rfl | rfl) | rfl
      · cases tree <;> cases isPart
        exact List.mem_append_left _ inPart
      · cases tree <;> cases isPart
        exact List.mem_append_right _ inPart
      · cases tree <;> cases isPart
        exact inPart

theorem mem_boundNames_iff (tree : Tree) (identifier : String) :
    identifier ∈ tree.boundNames ↔
      ∃ path, (∀ step ∈ path, Step.InPattern step) ∧ tree.at? path = some (.name identifier) := by
  constructor
  · intro bound
    induction tree with
    | name other =>
        obtain rfl := List.mem_singleton.mp bound
        exact ⟨[], by simp, rfl⟩
    | seq first second firstHypothesis secondHypothesis =>
        rcases List.mem_append.mp bound with inFirst | inSecond
        · obtain ⟨path, inPattern, found⟩ := firstHypothesis inFirst
          exact ⟨.first :: path, List.forall_mem_cons.mpr ⟨.inl (.inl rfl), inPattern⟩, found⟩
        · obtain ⟨path, inPattern, found⟩ := secondHypothesis inSecond
          exact ⟨.second :: path, List.forall_mem_cons.mpr ⟨.inl (.inr rfl), inPattern⟩, found⟩
    | pattern parts inductionHypothesis =>
        obtain ⟨path, inPattern, found⟩ := inductionHypothesis bound
        exact ⟨.parts :: path, List.forall_mem_cons.mpr ⟨.inr rfl, inPattern⟩, found⟩
    | _ => cases bound
  · rintro ⟨path, inPattern, found⟩
    exact mem_boundNames_of_at? inPattern found

theorem mem_parameterNames_of_at?
    {identifier : String}
    {binder : List Step}
    (inPattern : ∀ step ∈ binder, Step.InPattern step) :
    ∀ {row : List Step} {tree : Tree},
      (∀ step ∈ row, Step.InRow step) →
        tree.at? (row ++ .binder :: binder) = some (.name identifier) →
          identifier ∈ tree.parameterNames
  | [], tree, _, found => by
      obtain ⟨part, isPart, foundInPart⟩ := Option.bind_eq_some_iff.mp found
      cases tree <;> cases isPart
      exact mem_boundNames_of_at? inPattern foundInPart
  | step :: row, tree, inRow, found => by
      obtain ⟨headInRow, restInRow⟩ := List.forall_mem_cons.mp inRow
      obtain ⟨part, isPart, foundInPart⟩ := Option.bind_eq_some_iff.mp found
      have inPart := mem_parameterNames_of_at? inPattern restInRow foundInPart
      rcases headInRow with rfl | rfl
      · cases tree <;> cases isPart
        exact List.mem_append_left _ inPart
      · cases tree <;> cases isPart
        exact List.mem_append_right _ inPart

theorem exists_at?_of_mem_parameterNames
    {tree : Tree}
    {identifier : String}
    (isParameter : identifier ∈ tree.parameterNames) :
    ∃ row binder,
      (∀ step ∈ row, Step.InRow step) ∧
        (∀ step ∈ binder, Step.InPattern step) ∧
          tree.at? (row ++ .binder :: binder) = some (.name identifier) := by
  induction tree with
  | seq first second firstHypothesis secondHypothesis =>
      rcases List.mem_append.mp isParameter with inFirst | inSecond
      · obtain ⟨row, binder, inRow, inPattern, found⟩ := firstHypothesis inFirst
        exact ⟨.first :: row, binder, List.forall_mem_cons.mpr ⟨.inl rfl, inRow⟩, inPattern, found⟩
      · obtain ⟨row, binder, inRow, inPattern, found⟩ := secondHypothesis inSecond
        exact ⟨.second :: row, binder, List.forall_mem_cons.mpr ⟨.inr rfl, inRow⟩, inPattern, found⟩
  | parameter bound reads =>
      obtain ⟨binder, inPattern, found⟩ := (mem_boundNames_iff bound identifier).mp isParameter
      exact ⟨[], binder, by simp, inPattern, found⟩
  | _ => cases isParameter

/-- The names of the parameters of a function. -/
def ownParameters : Tree → List String
  | .function _ _ parameters _ _ | .lambda parameters _ => parameters.parameterNames
  | _ => []

theorem hasParameter_iff (function : Tree) (identifier : String) :
    function.HasParameter identifier ↔ identifier ∈ function.ownParameters := by
  constructor
  · rintro ⟨row, binder, inRow, inPattern, found⟩
    obtain ⟨parameters, isPart, foundInPart⟩ := Option.bind_eq_some_iff.mp found
    have isParameter := mem_parameterNames_of_at? inPattern inRow foundInPart
    cases function <;> cases isPart <;> exact isParameter
  · intro isParameter
    cases function with
    | function name types parameters returns body =>
        exact exists_at?_of_mem_parameterNames isParameter
    | lambda parameters body => exact exists_at?_of_mem_parameterNames isParameter
    | _ => cases isParameter

end Tree

/-! ## Occurrences step by step -/

namespace Scope

/-- The scope of the part of a piece of code that a step leads to. -/
def enter (scope : Scope) (tree : Tree) (step : Step) : Scope :=
  if step = .body then scope.body tree.ownParameters else scope

/-- The scope of the part of a piece of code that a path leads to. -/
def along : Scope → Tree → List Step → Scope
  | scope, _, [] => scope
  | scope, tree, step :: path =>
      match tree.part? step with
      | some part => along (scope.enter tree step) part path
      | none => scope

end Scope

theorem Step.exists_iff {holds : Step → Prop} :
    (∃ step, holds step) ↔
      holds .first ∨ holds .second ∨ holds .parts ∨ holds .label ∨ holds .target ∨
        holds .typeParameters ∨ holds .parameters ∨ holds .binder ∨ holds .reads ∨
          holds .part ∨ holds .other ∨ holds .body := by
  constructor
  · rintro ⟨step, held⟩
    cases step <;> simp [held]
  · tauto

namespace Tree

/-- What is read in a piece of code is the name that it is, or is read in a part of it. -/
theorem mem_occurrences_iff
    (tree : Tree)
    (role : Role)
    (scope : Scope)
    (occurrence : Occurrence) :
    occurrence ∈ tree.occurrences role scope ↔
      (role = .value ∧ ∃ identifier, tree = .name identifier ∧ occurrence ∈ scope.read identifier) ∨
        ∃ step part next,
          tree.part? step = some part ∧ role.after step = some next ∧
            occurrence ∈ part.occurrences next (scope.enter tree step) := by
  rw [Step.exists_iff]
  cases tree <;> cases role <;>
    simp [occurrences, part?, Role.after, Scope.enter, ownParameters]

theorem sizeOf_part?_lt
    {tree part : Tree}
    {step : Step}
    (isPart : tree.part? step = some part)
    (notLabel : step ≠ .label) :
    sizeOf part < sizeOf tree := by
  unfold part? at isPart
  split at isPart <;> cases isPart <;> simp +arith at notLabel ⊢

end Tree

theorem Role.ne_label_of_after
    {role next : Role}
    {step : Step}
    (seen : role.after step = some next) :
    step ≠ .label := by
  rintro rfl
  cases seen

namespace Tree

/-- What is read in a piece of code is found at the end of a path that leads to a place where names
are read, in the scope that the path leads to. -/
theorem mem_occurrences_iff_exists_path
    (tree : Tree)
    (role : Role)
    (scope : Scope)
    (occurrence : Occurrence) :
    occurrence ∈ tree.occurrences role scope ↔
      ∃ path identifier,
        tree.at? path = some (.name identifier) ∧ IsReading (role.entry ++ path) ∧
          occurrence ∈ (scope.along tree path).read identifier := by
  rw [mem_occurrences_iff]
  constructor
  · rintro (⟨rfl, identifier, rfl, read⟩ | ⟨step, part, next, isPart, seen, member⟩)
    · exact ⟨[], identifier, rfl, isReading_nil, read⟩
    · have notLabel := Role.ne_label_of_after seen
      have smaller := sizeOf_part?_lt isPart notLabel
      obtain ⟨path, identifier, found, reading, read⟩ :=
        (mem_occurrences_iff_exists_path part next _ occurrence).mp member
      refine ⟨step :: path, identifier, ?_, ?_, ?_⟩
      · rw [at?, isPart, Option.bind_some, found]
      · exact (isReading_entry_cons_iff role step path).mpr ⟨next, seen, reading⟩
      · rwa [Scope.along, isPart]
  · rintro ⟨path, identifier, found, reading, read⟩
    cases path with
    | nil =>
        obtain rfl := Option.some.inj found
        rw [List.append_nil] at reading
        have isValue : role = .value := by
          by_contra notValue
          exact not_isReading_entry_of_ne_value notValue reading
        exact .inl ⟨isValue, identifier, rfl, read⟩
    | cons step path =>
        obtain ⟨part, isPart, foundInPart⟩ := Option.bind_eq_some_iff.mp found
        obtain ⟨next, seen, readingInPart⟩ := (isReading_entry_cons_iff role step path).mp reading
        have notLabel := Role.ne_label_of_after seen
        have smaller := sizeOf_part?_lt isPart notLabel
        rw [Scope.along, isPart] at read
        exact .inr ⟨step, part, next, isPart, seen,
          (mem_occurrences_iff_exists_path part next _ occurrence).mpr
            ⟨path, identifier, foundInPart, readingInPart, read⟩⟩
termination_by sizeOf tree

end Tree

/-! ## Scopes along a path -/

theorem Tree.hides_cons_iff
    {tree part : Tree}
    {step : Step}
    {path : List Step}
    {identifier : String}
    (isPart : tree.part? step = some part) :
    tree.Hides (step :: path) identifier ↔
      step = .body ∧ tree.HasParameter identifier ∨ part.Hides path identifier := by
  constructor
  · rintro ⟨before, after, function, equal, leads, isParameter⟩
    cases before with
    | nil =>
        obtain ⟨isBody, rfl⟩ := List.cons.inj equal
        obtain rfl := Option.some.inj leads
        exact .inl ⟨isBody, isParameter⟩
    | cons head before =>
        obtain ⟨rfl, equalRest⟩ := List.cons.inj equal
        rw [at?, isPart, Option.bind_some] at leads
        exact .inr ⟨before, after, function, equalRest, leads, isParameter⟩
  · rintro (⟨rfl, isParameter⟩ | ⟨before, after, function, rfl, leads, isParameter⟩)
    · exact ⟨[], path, tree, rfl, rfl, isParameter⟩
    · refine ⟨step :: before, after, function, rfl, ?_, isParameter⟩
      rw [at?, isPart, Option.bind_some, leads]

namespace Scope

theorem mem_hidden_along_iff
    (scope : Scope)
    {tree found : Tree}
    {path : List Step}
    (identifier : String)
    (leads : tree.at? path = some found) :
    identifier ∈ (scope.along tree path).hidden ↔
      identifier ∈ scope.hidden ∨ tree.Hides path identifier := by
  induction path generalizing scope tree with
  | nil =>
      have notHidden : ¬ tree.Hides [] identifier := by
        rintro ⟨before, after, function, equal, _⟩
        simp at equal
      simp [along, notHidden]
  | cons step path inductionHypothesis =>
      obtain ⟨part, isPart, leadsOn⟩ := Option.bind_eq_some_iff.mp leads
      rw [along, isPart, inductionHypothesis _ leadsOn, Tree.hides_cons_iff isPart,
        Tree.hasParameter_iff]
      by_cases isBody : step = .body
      · simp [enter, isBody, body, or_assoc]
      · simp [enter, isBody]

theorem deferred_along
    (scope : Scope)
    {tree found : Tree}
    {path : List Step}
    (leads : tree.at? path = some found) :
    (scope.along tree path).deferred = (scope.deferred || decide (.body ∈ path)) := by
  induction path generalizing scope tree with
  | nil => simp [along]
  | cons step path inductionHypothesis =>
      obtain ⟨part, isPart, leadsOn⟩ := Option.bind_eq_some_iff.mp leads
      rw [along, isPart, inductionHypothesis _ leadsOn]
      by_cases isBody : step = .body
      · simp [enter, isBody, body]
      · simp [enter, isBody, Ne.symm isBody]

theorem mem_read_iff (scope : Scope) (identifier : String) (occurrence : Occurrence) :
    occurrence ∈ scope.read identifier ↔
      identifier ∉ scope.hidden ∧ occurrence = ⟨identifier, scope.deferred⟩ := by
  unfold read
  split
  next hidden => simp [hidden]
  next visible => simp [visible]

end Scope

namespace Tree

/-- The occurrences in a statement are those that the scoping rule admits. -/
theorem mem_occurrences_top_iff (tree : Tree) (identifier : String) (deferred : Bool) :
    ⟨identifier, deferred⟩ ∈ tree.occurrences .value .top ↔
      ∃ path, tree.Reads path identifier ∧ deferred = decide (.body ∈ path) := by
  rw [mem_occurrences_iff_exists_path]
  constructor
  · rintro ⟨path, other, found, reading, read⟩
    obtain ⟨visible, equal⟩ := (Scope.mem_read_iff _ _ _).mp read
    obtain ⟨rfl, rfl⟩ := Occurrence.mk.inj equal
    rw [Scope.mem_hidden_along_iff _ _ found] at visible
    rw [Scope.deferred_along _ found]
    exact ⟨path, ⟨found, reading, fun hides => visible (.inr hides)⟩, rfl⟩
  · rintro ⟨path, reads, rfl⟩
    refine ⟨path, identifier, reads.found, reads.reading, (Scope.mem_read_iff _ _ _).mpr ⟨?_, ?_⟩⟩
    · rw [Scope.mem_hidden_along_iff _ _ reads.found]
      rintro (atTop | hides)
      · cases atTop
      · exact reads.visible hides
    · rw [Scope.deferred_along _ reads.found]
      rfl

theorem mem_references_iff (tree : Tree) (identifier : String) :
    identifier ∈ tree.references ↔ ∃ path, tree.Reads path identifier := by
  rw [references, mem_nameSet, List.mem_map]
  constructor
  · rintro ⟨⟨_, deferred⟩, member, rfl⟩
    obtain ⟨path, reads, _⟩ := (mem_occurrences_top_iff tree _ deferred).mp member
    exact ⟨path, reads⟩
  · rintro ⟨path, reads⟩
    exact ⟨⟨identifier, decide (.body ∈ path)⟩,
      (mem_occurrences_top_iff tree identifier _).mpr ⟨path, reads, rfl⟩, rfl⟩

theorem mem_eagerReferences_iff (tree : Tree) (identifier : String) :
    identifier ∈ tree.eagerReferences ↔ ∃ path, tree.Reads path identifier ∧ .body ∉ path := by
  rw [eagerReferences, mem_nameSet, List.mem_map]
  constructor
  · rintro ⟨⟨_, deferred⟩, member, rfl⟩
    obtain ⟨isOccurrence, eager⟩ := List.mem_filter.mp member
    obtain ⟨path, reads, rfl⟩ := (mem_occurrences_top_iff tree _ deferred).mp isOccurrence
    exact ⟨path, reads, by simpa using eager⟩
  · rintro ⟨path, reads, entersNone⟩
    refine ⟨⟨identifier, false⟩, List.mem_filter.mpr ⟨?_, rfl⟩, rfl⟩
    exact (mem_occurrences_top_iff tree identifier _).mpr ⟨path, reads, by simp [entersNone]⟩

end Tree

end Inliner.Syntax
