import Inliner.Proofs.Selection.RunOrder
import Inliner.Proofs.Source.Spans
import Mathlib.Order.Bounds.Defs

/-!
# What a selection holds

A selection holds all module-level code and the definitions that are chosen, each of them once.
Under the exact policy these are the definitions asked for.  Otherwise they are the least set that
holds the definitions asked for and, with any code of the selection, the definitions of the names
that this code reads.  The placement neither drops one of these segments nor adds another one.
-/

namespace Inliner

open Syntax

/-! ## Following successors to the end -/

section Reach

variable {next : Nat → List Nat} {pool known : List Nat} {rounds item successor : Nat}

/-- A round that adds something leaves less of a pool unknown. -/
theorem length_unknown_append_lt
    {fresh : List Nat} {added : Nat}
    (isFresh : added ∈ fresh) (inPool : added ∈ pool) (isNew : added ∉ known) :
    (pool.filter (· ∉ known ++ fresh)).length < (pool.filter (· ∉ known)).length := by
  have twice :
      pool.filter (· ∉ known ++ fresh) = (pool.filter (· ∉ known)).filter (· ∉ fresh) := by
    rw [List.filter_filter]
    apply List.filter_congr
    intro other _
    simp [Bool.and_comm]
  rw [twice, List.length_filter_lt_length_iff_exists]
  refine ⟨added, List.mem_filter.mpr ⟨inPool, decide_eq_true isNew⟩, ?_⟩
  simpa using isFresh

/-- With as many rounds as there are items left to be known, everything is reached. -/
theorem mem_reachWithin_of_successor
    (inside : ∀ item, ∀ successor ∈ next item, successor ∈ pool)
    (enough : (pool.filter (· ∉ known)).length ≤ rounds)
    (member : item ∈ reachWithin next rounds known) (follows : successor ∈ next item) :
    successor ∈ reachWithin next rounds known := by
  induction rounds generalizing known with
  | zero =>
      rw [reachWithin]
      have nothingLeft : pool.filter (· ∉ known) = [] :=
        List.eq_nil_of_length_eq_zero (Nat.le_zero.mp enough)
      by_contra unknown
      have left : successor ∈ pool.filter (· ∉ known) :=
        List.mem_filter.mpr ⟨inside item successor follows, decide_eq_true unknown⟩
      rw [nothingLeft] at left
      cases left
  | succ rounds inductionHypothesis =>
      rw [reachWithin] at member ⊢
      split at member
      next nothingNew =>
        by_contra unknown
        have isNew : successor ∈ ((known.flatMap next).filter (· ∉ known)).eraseDups := by
          rw [List.mem_eraseDups, List.mem_filter, decide_eq_true_eq]
          exact ⟨List.mem_flatMap.mpr ⟨item, member, follows⟩, unknown⟩
        rw [nothingNew] at isNew
        cases isNew
      next someNew =>
        refine inductionHypothesis ?_ member
        obtain ⟨added, isFresh⟩ := List.exists_mem_of_ne_nil _ someNew
        obtain ⟨reached, isNew⟩ := List.mem_filter.mp (List.mem_eraseDups.mp isFresh)
        obtain ⟨before, _, leads⟩ := List.mem_flatMap.mp reached
        have fewer := length_unknown_append_lt isFresh (inside before added leads)
          (of_decide_eq_true isNew)
        omega

end Reach

namespace ParsedSource

variable {source : ParsedSource} {names : List String} {policy : SymbolPolicy}

/-! ## Definitions and module-level code -/

/-- A segment is the last one that consists of a definition of a name. -/
def LastDefines (source : ParsedSource) (name : String) (index : Nat) : Prop :=
  source.definitionOf? index = some name ∧
    ∀ later, index < later → source.definitionOf? later ≠ some name

/-- A segment of a source consists of imports and of code that is no definition. -/
def IsModuleCode (source : ParsedSource) (index : Nat) : Prop :=
  index < source.segments.length ∧
    ∀ statement ∈ source.statementsOf index,
      statement.kind = .other ∨ statement.kind = .importing

instance (source : ParsedSource) (index : Nat) : Decidable (source.IsModuleCode index) :=
  inferInstanceAs (Decidable (_ ∧ _))

theorem LastDefines.unique
    {name : String} {first second : Nat}
    (firstLast : source.LastDefines name first) (secondLast : source.LastDefines name second) :
    first = second := by
  rcases Nat.lt_trichotomy first second with below | same | above
  · exact absurd secondLast.1 (firstLast.2 second below)
  · exact same
  · exact absurd firstLast.1 (secondLast.2 first above)

theorem mem_indices_of_definitionOf?
    {name : String} {index : Nat} (defines : source.definitionOf? index = some name) :
    index ∈ source.indices := by
  rw [indices, List.mem_range]
  by_contra outside
  have noStatements : source.statementsOf index = [] := by
    rw [statementsOf, List.getElem?_eq_none (Nat.le_of_not_lt outside)]
  rw [definitionOf?, noStatements] at defines
  cases defines

theorem lastDefines_of_definitionIndex?
    {name : String} {index : Nat} (found : source.definitionIndex? name = some index) :
    source.LastDefines name index := by
  obtain ⟨defines, after, before, split, others⟩ := List.find?_eq_some_iff_append.mp found
  refine ⟨eq_of_beq defines, ?_⟩
  intro later above alsoDefines
  have descending : source.indices.reverse.Pairwise (· > ·) :=
    List.pairwise_reverse.mpr List.pairwise_lt_range
  have listed : later ∈ source.indices.reverse :=
    List.mem_reverse.mpr (mem_indices_of_definitionOf? alsoDefines)
  rw [split] at descending listed
  -- The indices are searched from the last one on, so a later one has been passed.
  rcases List.mem_append.mp listed with passed | ahead
  · have otherwise := others later passed
    simp [alsoDefines] at otherwise
  · rcases List.mem_cons.mp ahead with rfl | below
    · exact Nat.lt_irrefl later above
    · have order := (List.pairwise_cons.mp (List.pairwise_append.mp descending).2.1).1 later below
      exact Nat.lt_asymm above order

theorem definitionIndex?_eq_some_iff {name : String} {index : Nat} :
    source.definitionIndex? name = some index ↔ source.LastDefines name index := by
  refine ⟨lastDefines_of_definitionIndex?, fun last => ?_⟩
  have present : (source.definitionIndex? name).isSome = true := by
    rw [definitionIndex?, List.find?_isSome]
    exact ⟨index, List.mem_reverse.mpr (mem_indices_of_definitionOf? last.1), by simp [last.1]⟩
  obtain ⟨found, isFound⟩ := Option.isSome_iff_exists.mp present
  rw [isFound, (lastDefines_of_definitionIndex? isFound).unique last]

theorem mem_dependenciesOf_iff {user index : Nat} :
    index ∈ source.dependenciesOf user ↔
      ∃ statement ∈ source.statementsOf user, ∃ name ∈ statement.references,
        source.LastDefines name index := by
  simp only [dependenciesOf, referencesOf, List.mem_filterMap, List.mem_flatMap,
    definitionIndex?_eq_some_iff]
  constructor
  · rintro ⟨name, ⟨statement, member, reads⟩, last⟩
    exact ⟨statement, member, name, reads, last⟩
  · rintro ⟨statement, member, name, reads, last⟩
    exact ⟨name, ⟨statement, member, reads⟩, last⟩

theorem mem_requested_iff {index : Nat} :
    index ∈ source.requested names ↔ ∃ name ∈ names, source.LastDefines name index := by
  simp only [requested, List.mem_eraseDups, List.mem_filterMap, definitionIndex?_eq_some_iff]

theorem mem_globals_iff_isModuleCode {index : Nat} :
    index ∈ source.globals ↔ source.IsModuleCode index := by
  rw [mem_globals_iff, indices, List.mem_range, IsModuleCode, isGlobal]
  refine and_congr_right fun _ => ?_
  simp only [Bool.and_eq_true, Bool.not_eq_true', List.all_eq_true, Bool.or_eq_true, beq_iff_eq]
  refine ⟨And.right, fun code => ⟨?_, code⟩⟩
  rw [isDefinition, Option.isSome_eq_false_iff, Option.isNone_iff_eq_none]
  unfold definitionOf?
  split
  next only alone =>
    have kind := code only (by rw [alone]; exact List.mem_singleton_self only)
    rcases kind with other | importing
    · simp [Statement.definitionName?, other]
    · simp [Statement.definitionName?, importing]
  next => rfl

/-! ## The definitions that are chosen -/

/-- With any module-level code, and with any segment of a set, the set holds the definitions of the
names that are read there. -/
def ClosedUnderReading (source : ParsedSource) (set : Set Nat) : Prop :=
  ∀ user, source.IsModuleCode user ∨ user ∈ set →
    ∀ statement ∈ source.statementsOf user, ∀ name ∈ statement.references,
      ∀ index, source.LastDefines name index → index ∈ set

/-- The sets that hold the definitions of some names and are closed under reading. -/
def closedChoices (source : ParsedSource) (names : List String) : Set (Set Nat) :=
  {set | (∀ name ∈ names, ∀ index, source.LastDefines name index → index ∈ set) ∧
    source.ClosedUnderReading set}

theorem mem_chosen_of_mem_dependenciesOf
    {user index : Nat}
    (taken : user ∈ source.globals ∨ user ∈ source.chosen names .withDependencies)
    (depends : index ∈ source.dependenciesOf user) :
    index ∈ source.chosen names .withDependencies := by
  rcases taken with isGlobal | isChosen
  · exact mem_reachWithin_of_mem
      (List.mem_append_right _ (List.mem_flatMap.mpr ⟨user, isGlobal, depends⟩))
  · have inside : ∀ user, ∀ index ∈ source.dependenciesOf user, index ∈ source.indices :=
      fun _ _ follows => (isDefinition_of_mem_dependenciesOf follows).2
    refine mem_reachWithin_of_successor inside ?_ isChosen depends
    refine (List.length_filter_le _ _).trans ?_
    rw [indices, List.length_range]

/-- What is chosen with dependencies is the least set closed under reading that holds the
definitions asked for. -/
theorem isLeast_chosen (source : ParsedSource) (names : List String) :
    IsLeast (source.closedChoices names)
      {index | index ∈ source.chosen names .withDependencies} := by
  refine ⟨⟨?_, ?_⟩, ?_⟩
  · intro name asked index last
    exact requested_subset_chosen (mem_requested_iff.mpr ⟨name, asked, last⟩)
  · intro user taken statement member name reads index last
    rw [← mem_globals_iff_isModuleCode] at taken
    exact mem_chosen_of_mem_dependenciesOf taken
      (mem_dependenciesOf_iff.mpr ⟨statement, member, name, reads, last⟩)
  · rintro set ⟨holdsAsked, closed⟩ index chosen
    have kept : ∀ user, user ∈ set → ∀ successor ∈ source.dependenciesOf user, successor ∈ set := by
      intro user inSet successor depends
      obtain ⟨statement, member, name, reads, last⟩ := mem_dependenciesOf_iff.mp depends
      exact closed user (Or.inr inSet) statement member name reads successor last
    refine of_mem_reachWithin kept ?_ chosen
    intro other start
    rcases List.mem_append.mp start with wanted | used
    · obtain ⟨name, asked, last⟩ := mem_requested_iff.mp wanted
      exact holdsAsked name asked other last
    · obtain ⟨user, isGlobal, depends⟩ := List.mem_flatMap.mp used
      obtain ⟨statement, member, name, reads, last⟩ := mem_dependenciesOf_iff.mp depends
      exact closed user (Or.inl (mem_globals_iff_isModuleCode.mp isGlobal)) statement member
        name reads other last

/-! ## The segments that are placed -/

theorem mem_visitOrder_of_mem_selectable
    {index : Nat} (selectable : index ∈ source.selectable (source.chosen names policy)) :
    index ∈ source.visitOrder (source.requested names) (source.chosen names policy) := by
  obtain ⟨known, kind⟩ := mem_selectable_iff.mp selectable
  simp only [visitOrder, List.mem_append]
  rcases kind with isChosen | isGlobal
  · by_cases wanted : index ∈ source.requested names
    · exact Or.inl (Or.inl (Or.inr wanted))
    · right
      rw [furtherDefinitions, List.mem_filter, Bool.and_eq_true, decide_eq_true_eq,
        decide_eq_true_eq]
      exact ⟨known, isChosen, wanted⟩
  · exact Or.inl (Or.inr (mem_globals_iff.mpr ⟨known, isGlobal⟩))

/-- Whatever can come up in a selection is placed: at the end nothing is under way any more. -/
theorem mem_select_iff_mem_selectable {index : Nat} :
    index ∈ (source.select names policy).segments ↔
      index ∈ source.selectable (source.chosen names policy) := by
  refine ⟨mem_selectable_of_mem_select, fun selectable => ?_⟩
  have visits := source.visits_select names policy
  rcases visits.entered_of_mem (mem_visitOrder_of_mem_selectable selectable) with
    emitted | visiting
  · exact emitted
  · rw [visits.visiting_eq] at visiting
    simp [Placement.empty] at visiting

theorem mem_select_iff {index : Nat} :
    index ∈ (source.select names policy).segments ↔
      source.IsModuleCode index ∨ index ∈ source.chosen names policy := by
  rw [mem_select_iff_mem_selectable, mem_selectable_iff, ← mem_globals_iff_isModuleCode,
    mem_globals_iff]
  constructor
  · rintro ⟨known, isChosen | isGlobal⟩
    · exact Or.inr isChosen
    · exact Or.inl ⟨known, isGlobal⟩
  · rintro (⟨known, isGlobal⟩ | isChosen)
    · exact ⟨known, Or.inr isGlobal⟩
    · exact ⟨(isDefinition_of_mem_chosen isChosen).2, Or.inl isChosen⟩

/-! ## Names that a module does not have -/

theorem mem_statements_of_mem_statementsOf
    {index : Nat} {statement : Statement} (member : statement ∈ source.statementsOf index) :
    statement ∈ source.statements := by
  unfold statementsOf segmentStatements at member
  split at member
  · exact List.mem_of_mem_drop (List.mem_of_mem_take member)
  · cases member

/-- A definition binds its name. -/
theorem mem_boundNames_of_definitionOf?
    {text : Text} (parsed : parse text = .ok source)
    {name : String} {index : Nat} (defines : source.definitionOf? index = some name) :
    name ∈ source.boundNames := by
  obtain ⟨nodes, rfl, _⟩ := exists_nodes_of_parse parsed
  unfold definitionOf? at defines
  split at defines
  next only alone =>
    have inSegment : only ∈ (ofNodes text nodes).statementsOf index := by
      rw [alone]
      exact List.mem_singleton_self only
    have member := mem_statements_of_mem_statementsOf inSegment
    obtain ⟨node, _, rfl⟩ := List.mem_map.mp member
    have kind : node.form.kind = .definition name := by
      unfold Statement.definitionName? at defines
      split at defines
      next other isDefinition =>
        rw [← Option.some.inj defines]
        exact isDefinition
      next => cases defines
    have form : node.form = .definition name := by
      cases form : node.form with
      | definition other =>
          rw [form] at kind
          rw [StatementKind.definition.inj kind]
      | branch condition =>
          rw [form, Form.kind] at kind
          split at kind <;> cases kind
      | _ =>
          rw [form] at kind
          cases kind
    refine List.mem_flatMap.mpr ⟨_, member, ?_⟩
    simp [Node.statement, form, Form.binds]
  next => cases defines

theorem missing_eq
    {text : Text} (parsed : parse text = .ok source) (names : List String) :
    source.missing names = names.filter (· ∉ source.boundNames) := by
  unfold missing
  apply List.filter_congr
  intro name _
  cases found : source.definitionIndex? name with
  | none => simp
  | some index =>
      have bound := mem_boundNames_of_definitionOf? parsed
        (lastDefines_of_definitionIndex? found).1
      simp [bound]

/-! ## The extent of a selection -/

/-- A selection holds, without repetition, exactly the module-level code and the chosen definitions.
These are the last definitions of the names asked for, and with dependencies the least set that
holds them and is closed under reading.  The names asked for that the module does not bind are
missing, in their order and with repetitions. -/
theorem select_eq_dependency_closure
    {text : Text} (parsed : parse text = .ok source)
    (names : List String) (policy : SymbolPolicy) :
    (source.select names policy).segments.Nodup ∧
      (∀ index, index ∈ (source.select names policy).segments ↔
        source.IsModuleCode index ∨ index ∈ source.chosen names policy) ∧
      (∀ index, index ∈ source.chosen names .exact ↔
        ∃ name ∈ names, source.LastDefines name index) ∧
      IsLeast (source.closedChoices names)
        {index | index ∈ source.chosen names .withDependencies} ∧
      (source.select names policy).missing = names.filter (· ∉ source.boundNames) :=
  ⟨source.nodup_select names policy, fun _ => mem_select_iff, fun _ => mem_requested_iff,
    source.isLeast_chosen names, missing_eq parsed names⟩

/-- Two definitions that call each other, one of them replaced further down, behind module-level
code that calls another one. -/
def knottedModule : Text :=
  ("def f():\n    return g()\n\nx = h()\n\ndef g():\n    return f()\n\n" ++
    "def h():\n    return 1\n\ndef spare():\n    return 2\n\ndef f():\n    return g() + x\n").toList

theorem select_knottedModule :
    ∃ source,
      parse knottedModule = .ok source ∧
      (source.select ["f", "gone", "x", "gone"] .withDependencies).segments = [5, 3, 1, 2] ∧
      (source.select ["f", "gone", "x", "gone"] .withDependencies).missing = ["gone", "gone"] ∧
      (source.select ["f"] .exact).segments = [1, 5] ∧
      IsLeast (source.closedChoices ["f", "gone", "x", "gone"])
        {index | index ∈ source.chosen ["f", "gone", "x", "gone"] .withDependencies} := by
  have facts : ∃ source,
      parse knottedModule = .ok source ∧
      (source.select ["f", "gone", "x", "gone"] .withDependencies).segments = [5, 3, 1, 2] ∧
      (source.select ["f", "gone", "x", "gone"] .withDependencies).missing = ["gone", "gone"] ∧
      (source.select ["f"] .exact).segments = [1, 5] :=
    ⟨(parse knottedModule).toOption.getD default, by decide +kernel⟩
  obtain ⟨source, parsed, segments, missing, exactly⟩ := facts
  obtain ⟨_, _, _, least, _⟩ :=
    select_eq_dependency_closure parsed ["f", "gone", "x", "gone"] .withDependencies
  exact ⟨source, parsed, segments, missing, exactly, least⟩

end ParsedSource

end Inliner
