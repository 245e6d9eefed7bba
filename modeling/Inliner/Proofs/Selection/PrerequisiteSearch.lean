import Inliner.Proofs.Selection.DependencyClosure
import Inliner.Proofs.Selection.Worklist
import Mathlib.Data.List.Destutter
import Mathlib.Data.List.Sort

/-!
# Looking up what has to run before a segment

The selected segments are entered into a table under the names that they bind.  What has to run
before a segment is found by looking up names in this table, and then the names read in the
definitions that come up.  Neither the order of the entries nor the order of the lookups matters:
sorted, the segments found are the prerequisites.
-/

namespace Inliner

/-! ## The table of binders -/

/-- The segments that bind a name, for every name. -/
abbrev BinderTable := String → List Nat

namespace BinderTable

/-- Enters a segment as the last one that binds a name. -/
def push (table : BinderTable) (entry : String × Nat) : BinderTable :=
  Function.update table entry.1 (table entry.1 ++ [entry.2])

/-- Sorts the segments that bind a name, and drops those that are the same as the one before. -/
def tidy (table : BinderTable) (name : String) : BinderTable :=
  Function.update table name ((table name).mergeSort.destutter (· ≠ ·))

theorem foldl_push (entries : List (String × Nat)) (table : BinderTable) (name : String) :
    entries.foldl push table name =
      table name ++ (entries.filter (·.1 = name)).map Prod.snd := by
  induction entries generalizing table with
  | nil => simp
  | cons entry rest inductionHypothesis =>
      rw [List.foldl_cons, inductionHypothesis, push]
      by_cases same : entry.1 = name
      · subst same
        simp
      · rw [Function.update_of_ne (Ne.symm same)]
        simp [same]

theorem foldl_tidy
    {keys : List String} (once : keys.Nodup) (table : BinderTable) (name : String) :
    keys.foldl tidy table name =
      if name ∈ keys then (table name).mergeSort.destutter (· ≠ ·) else table name := by
  induction keys generalizing table with
  | nil => simp
  | cons key rest inductionHypothesis =>
      obtain ⟨notAgain, restOnce⟩ := List.nodup_cons.mp once
      rw [List.foldl_cons, inductionHypothesis restOnce, tidy]
      by_cases same : name = key
      · subst same
        simp [notAgain]
      · rw [Function.update_of_ne same]
        simp [same]

end BinderTable

/-- Sorting and dropping repetitions gives a strictly ascending list. -/
theorem pairwise_destutter_mergeSort (items : List Nat) :
    (items.mergeSort.destutter (· ≠ ·)).Pairwise (· < ·) := by
  have sorted : items.mergeSort.Pairwise (· ≤ ·) := List.pairwise_mergeSort' (· ≤ ·) items
  rw [sorted.destutter_eq_dedup]
  have distinct : items.mergeSort.dedup.Pairwise (· ≠ ·) := List.nodup_dedup _
  refine ((sorted.sublist (List.dedup_sublist _)).and distinct).imp ?_
  exact fun ⟨most, different⟩ => Nat.lt_of_le_of_ne most different

theorem mem_destutter_mergeSort {items : List Nat} {item : Nat} :
    item ∈ items.mergeSort.destutter (· ≠ ·) ↔ item ∈ items := by
  have sorted : items.mergeSort.Pairwise (· ≤ ·) := List.pairwise_mergeSort' (· ≤ ·) items
  rw [sorted.destutter_eq_dedup, List.mem_dedup, List.mem_mergeSort]

/-- Sorting a list without repetitions gives a strictly ascending list. -/
theorem pairwise_mergeSort_of_nodup {items : List Nat} (once : items.Nodup) :
    items.mergeSort.Pairwise (· < ·) := by
  have sorted : items.mergeSort.Pairwise (· ≤ ·) := List.pairwise_mergeSort' (· ≤ ·) items
  have distinct : items.mergeSort.Pairwise (· ≠ ·) :=
    (List.mergeSort_perm items _).nodup_iff.mpr once
  exact (sorted.and distinct).imp fun ⟨most, different⟩ => Nat.lt_of_le_of_ne most different

namespace ParsedSource

variable {source : ParsedSource} {names : List String} {policy : SymbolPolicy}

theorem pairwise_filter_indices (source : ParsedSource) (keeps : Nat → Bool) :
    (source.indices.filter keeps).Pairwise (· < ·) :=
  List.pairwise_lt_range.sublist List.filter_sublist

theorem pairwise_prerequisites (source : ParsedSource) (chosen : List Nat) (index : Nat) :
    (source.prerequisites chosen index).Pairwise (· < ·) := by
  unfold prerequisites
  split
  · exact source.pairwise_filter_indices _
  · exact source.pairwise_filter_indices _

/-- The names bound in some segments, each with its segment. -/
def bindings (source : ParsedSource) (segments : List Nat) : List (String × Nat) :=
  segments.flatMap fun index => (source.bindsOf index).map fun name => (name, index)

/-- The table that results if the chosen definitions are entered in some order, then all
module-level code, and the entries are tidied up in some order. -/
def binderTable (source : ParsedSource) (enumeration : List Nat) (keys : List String) :
    BinderTable :=
  keys.foldl BinderTable.tidy
    ((source.bindings (enumeration ++ source.globals)).foldl BinderTable.push fun _ => [])

/-- The selected segments that bind a name, in order. -/
def binders (source : ParsedSource) (chosen : List Nat) : BinderTable := fun name =>
  source.indices.filter fun index =>
    source.isSelected chosen index && decide (name ∈ source.bindsOf index)

theorem mem_bindings_iff {segments : List Nat} {name : String} {index : Nat} :
    (name, index) ∈ source.bindings segments ↔ index ∈ segments ∧ name ∈ source.bindsOf index := by
  simp only [bindings, List.mem_flatMap, List.mem_map, Prod.mk.injEq]
  constructor
  · rintro ⟨other, member, bound, binds, rfl, rfl⟩
    exact ⟨member, binds⟩
  · rintro ⟨member, binds⟩
    exact ⟨index, member, name, binds, rfl, rfl⟩

theorem mem_binders_iff
    {chosen : List Nat} (areIndices : ∀ index ∈ chosen, index ∈ source.indices)
    {name : String} {index : Nat} :
    index ∈ source.binders chosen name ↔
      (index ∈ chosen ∨ index ∈ source.globals) ∧ name ∈ source.bindsOf index := by
  rw [binders, List.mem_filter, isSelected, Bool.and_eq_true, Bool.or_eq_true, decide_eq_true_eq,
    decide_eq_true_eq, mem_globals_iff]
  constructor
  · rintro ⟨known, isChosen | isGlobal, binds⟩
    · exact ⟨Or.inl isChosen, binds⟩
    · exact ⟨Or.inr ⟨known, isGlobal⟩, binds⟩
  · rintro ⟨isChosen | ⟨known, isGlobal⟩, binds⟩
    · exact ⟨areIndices index isChosen, Or.inl isChosen, binds⟩
    · exact ⟨known, Or.inr isGlobal, binds⟩

/-- The table of binders depends only on which definitions are chosen. -/
theorem binderTable_eq
    {chosen enumeration : List Nat} {keys : List String}
    (areIndices : ∀ index ∈ chosen, index ∈ source.indices)
    (enumerates : ∀ index, index ∈ enumeration ↔ index ∈ chosen)
    (once : keys.Nodup)
    (areKeys : ∀ name,
      name ∈ keys ↔ ∃ index, (name, index) ∈ source.bindings (enumeration ++ source.globals)) :
    source.binderTable enumeration keys = source.binders chosen := by
  funext name
  rw [binderTable, BinderTable.foldl_tidy once, BinderTable.foldl_push, List.nil_append]
  set entered := ((source.bindings (enumeration ++ source.globals)).filter (·.1 = name)).map
    Prod.snd with entered_eq
  have mem_entered : ∀ index, index ∈ entered ↔ index ∈ source.binders chosen name := by
    intro index
    rw [mem_binders_iff areIndices, ← enumerates, ← List.mem_append, ← mem_bindings_iff, entered_eq]
    simp only [List.mem_map, List.mem_filter, decide_eq_true_eq, Prod.exists]
    constructor
    · rintro ⟨_, _, ⟨member, rfl⟩, rfl⟩
      exact member
    · exact fun member => ⟨name, index, ⟨member, rfl⟩, rfl⟩
  by_cases isKey : name ∈ keys
  · rw [if_pos isKey]
    refine (pairwise_destutter_mergeSort entered).eq_of_mem_iff
      (source.pairwise_filter_indices _) fun index => ?_
    rw [mem_destutter_mergeSort, mem_entered]
  · rw [if_neg isKey]
    -- Nothing has been entered under a name that is no key.
    have isEmpty : ∀ index, index ∉ source.binders chosen name := by
      intro index member
      rw [mem_binders_iff areIndices, ← enumerates, ← List.mem_append, ← mem_bindings_iff] at member
      exact isKey ((areKeys name).mpr ⟨index, member⟩)
    rw [List.eq_nil_iff_forall_not_mem.mpr isEmpty, List.eq_nil_iff_forall_not_mem]
    exact fun index member => isEmpty index ((mem_entered index).mp member)

/-! ## Looking up names -/

/-- A name leads to the segments that bind it; for module-level code, module-level code further down
is passed over.  There the chosen definitions that come up open all names that they read. -/
def searchRules
    (source : ParsedSource) (chosen : List Nat) (table : BinderTable) (index : Nat) :
    LookupRules String where
  targets name := (table name).filter fun target =>
    source.isDefinition target || source.isDefinition index || decide (target ≤ index)
  opens target :=
    if !source.isDefinition index && source.isDefinition target && decide (target ∈ chosen) then
      source.referencesOf target
    else
      []

/-- The names that are looked up from the start on. -/
def searchedNames (source : ParsedSource) (index : Nat) : List String :=
  if source.isDefinition index then source.eagerReferencesOf index else source.referencesOf index

theorem terminates_searchRules
    (source : ParsedSource) (chosen selected : List Nat) (index : Nat) :
    Worklist.Terminates (source.searchRules chosen (source.binders selected) index) := by
  have inIndices : ∀ name,
      ∀ target ∈ (source.searchRules chosen (source.binders selected) index).targets name,
        target ∈ source.indices.toFinset := fun _ _ leads =>
    List.mem_toFinset.mpr (List.mem_filter.mp (List.mem_filter.mp leads).1).1
  exact Worklist.terminates_of_pool inIndices

section Search

variable {chosen : List Nat} {index target : Nat}

theorem bindsOneOf_iff {bound : List String} :
    source.bindsOneOf bound target = true ↔ ∃ name ∈ bound, name ∈ source.bindsOf target := by
  rw [bindsOneOf, List.any_eq_true]
  exact exists_congr fun name => by rw [decide_eq_true_eq, and_comm]

theorem mem_calledBy_iff :
    target ∈ source.calledBy chosen index ↔
      target ∈ source.indices ∧ target ∈ chosen ∧
        ∃ name ∈ source.referencesOf index, name ∈ source.bindsOf target := by
  rw [calledBy, List.mem_filter, Bool.and_eq_true, decide_eq_true_eq, bindsOneOf_iff]

theorem isDefinition_eq_false_of_mem_globals (member : index ∈ source.globals) :
    source.isDefinition index = false := by
  have isGlobal := (mem_globals_iff.mp member).2
  rw [ParsedSource.isGlobal, Bool.and_eq_true, Bool.not_eq_true'] at isGlobal
  exact isGlobal.1

/-- What is reached from a segment is closed under calls. -/
theorem mem_reachedFrom_of_mem_calledBy
    {caller : Nat} (reached : caller = index ∨ caller ∈ source.reachedFrom chosen index)
    (called : target ∈ source.calledBy chosen caller) :
    target ∈ source.reachedFrom chosen index := by
  rcases reached with rfl | reached
  · exact mem_reachWithin_of_mem called
  · have inside : ∀ caller, ∀ callee ∈ source.calledBy chosen caller, callee ∈ source.indices :=
      fun _ _ called => (mem_calledBy_iff.mp called).1
    refine mem_reachWithin_of_successor inside ?_ reached called
    refine (List.length_filter_le _ _).trans ?_
    rw [indices, List.length_range]

theorem mem_prerequisites_of_isDefinition (isDefinition : source.isDefinition index = true) :
    target ∈ source.prerequisites chosen index ↔
      target ≠ index ∧ ∃ name ∈ source.eagerReferencesOf index,
        target ∈ source.binders chosen name := by
  simp only [prerequisites, if_pos isDefinition, List.mem_filter, Bool.and_eq_true,
    decide_eq_true_eq, bindsOneOf_iff, binders]
  constructor
  · rintro ⟨known, ⟨different, selected⟩, name, reads, binds⟩
    exact ⟨different, name, reads, known, selected, binds⟩
  · rintro ⟨different, name, reads, known, selected, binds⟩
    exact ⟨known, ⟨different, selected⟩, name, reads, binds⟩

theorem mem_prerequisites_of_not_isDefinition
    (notDefinition : source.isDefinition index = false) :
    target ∈ source.prerequisites chosen index ↔
      target ∈ source.reachedFrom chosen index ∨
        target < index ∧ target ∈ source.globals ∧
          ∃ reader, (reader = index ∨ reader ∈ source.reachedFrom chosen index) ∧
            ∃ name ∈ source.referencesOf reader, name ∈ source.bindsOf target := by
  have known : target ∈ source.reachedFrom chosen index → target ∈ source.indices := by
    refine of_mem_reachWithin (fun _ _ callee called => (mem_calledBy_iff.mp called).1) ?_
    exact fun callee called => (mem_calledBy_iff.mp called).1
  have readers :
      (∃ name ∈ source.referencesOf index ++
          (source.reachedFrom chosen index).flatMap source.referencesOf,
        name ∈ source.bindsOf target) ↔
      ∃ reader, (reader = index ∨ reader ∈ source.reachedFrom chosen index) ∧
        ∃ name ∈ source.referencesOf reader, name ∈ source.bindsOf target := by
    constructor
    · rintro ⟨name, reads, binds⟩
      rcases List.mem_append.mp reads with directly | called
      · exact ⟨index, Or.inl rfl, name, directly, binds⟩
      · obtain ⟨reader, reached, reads⟩ := List.mem_flatMap.mp called
        exact ⟨reader, Or.inr reached, name, reads, binds⟩
    · rintro ⟨reader, rfl | reached, name, reads, binds⟩
      · exact ⟨name, List.mem_append_left _ reads, binds⟩
      · exact ⟨name, List.mem_append_right _ (List.mem_flatMap.mpr ⟨reader, reached, reads⟩), binds⟩
  simp only [prerequisites, notDefinition, Bool.false_eq_true, if_false, List.mem_filter,
    Bool.or_eq_true, Bool.and_eq_true, decide_eq_true_eq, bindsOneOf_iff, readers, mem_globals_iff]
  constructor
  · rintro ⟨inside, reached | ⟨⟨below, isGlobal⟩, read⟩⟩
    · exact Or.inl reached
    · exact Or.inr ⟨below, ⟨inside, isGlobal⟩, read⟩
  · rintro (reached | ⟨below, ⟨inside, isGlobal⟩, read⟩)
    · exact ⟨known reached, Or.inl reached⟩
    · exact ⟨inside, Or.inr ⟨⟨below, isGlobal⟩, read⟩⟩

/-- A segment is no prerequisite of itself. -/
theorem ne_of_mem_prerequisites
    (areDefinitions : ∀ other ∈ chosen, source.isDefinition other = true)
    (member : target ∈ source.prerequisites chosen index) :
    target ≠ index := by
  cases isDefinition : source.isDefinition index with
  | true => exact ((mem_prerequisites_of_isDefinition isDefinition).mp member).1
  | false =>
      have parts := (mem_prerequisites_of_not_isDefinition isDefinition).mp member
      rcases parts with reached | ⟨below, _⟩
      · rintro rfl
        have defined := areDefinitions target (mem_chosen_of_mem_reachedFrom reached)
        rw [isDefinition] at defined
        cases defined
      · exact Nat.ne_of_lt below

theorem isLeast_prerequisites_of_isDefinition
    (isDefinition : source.isDefinition index = true) :
    IsLeast
      ((source.searchRules chosen (source.binders chosen) index).closedSets
        (source.searchedNames index) {index})
      {target | target ∈ ({index} : Finset Nat) ∨ target ∈ source.prerequisites chosen index} := by
  have mem_targets : ∀ name target,
      target ∈ (source.searchRules chosen (source.binders chosen) index).targets name ↔
        target ∈ source.binders chosen name := by
    intro name target
    simp [searchRules, isDefinition]
  have mem_names : ∀ name,
      name ∈ (source.searchedNames index : Multiset String) ↔
        name ∈ source.eagerReferencesOf index := by
    intro name
    rw [Multiset.mem_coe, searchedNames, if_pos isDefinition]
  refine ⟨⟨fun _ => Or.inl, ?_, ?_⟩, ?_⟩
  · intro name reads target binds
    by_cases same : target = index
    · exact Or.inl (Finset.mem_singleton.mpr same)
    · exact Or.inr ((mem_prerequisites_of_isDefinition isDefinition).mpr
        ⟨same, name, (mem_names name).mp reads, (mem_targets name target).mp binds⟩)
  · intro number _ _ name opened
    simp [searchRules, isDefinition] at opened
  · rintro set ⟨holdsIndex, holdsTargets, _⟩ target (itself | needed)
    · exact holdsIndex target itself
    · obtain ⟨_, name, reads, binds⟩ := (mem_prerequisites_of_isDefinition isDefinition).mp needed
      have isTarget := (mem_targets name target).mpr binds
      exact holdsTargets name ((mem_names name).mpr reads) target isTarget

section Code

variable
  (areDefinitions : ∀ other ∈ chosen,
    source.isDefinition other = true ∧ other ∈ source.indices)
  (notDefinition : source.isDefinition index = false)

include areDefinitions in
theorem notMem_chosen_of_mem_globals (isGlobal : target ∈ source.globals) : target ∉ chosen := by
  intro isChosen
  have isDefinition := (areDefinitions target isChosen).1
  rw [isDefinition_eq_false_of_mem_globals isGlobal] at isDefinition
  cases isDefinition

include notDefinition in
theorem mem_searchedNames_iff {name : String} :
    name ∈ (source.searchedNames index : Multiset String) ↔ name ∈ source.referencesOf index := by
  simp [searchedNames, notDefinition]

include areDefinitions notDefinition

/-- For module-level code a name leads to the chosen definitions that bind it, and to the
module-level code that binds it and does not stand further down. -/
theorem mem_targets_iff {name : String} :
    target ∈ (source.searchRules chosen (source.binders chosen) index).targets name ↔
      (target ∈ chosen ∨ target ∈ source.globals ∧ target ≤ index) ∧
        name ∈ source.bindsOf target := by
  simp only [searchRules, List.mem_filter, notDefinition, Bool.or_false, Bool.or_eq_true,
    decide_eq_true_eq, mem_binders_iff fun other isChosen => (areDefinitions other isChosen).2]
  constructor
  · rintro ⟨⟨isChosen | isGlobal, binds⟩, isDefinition | most⟩
    · exact ⟨Or.inl isChosen, binds⟩
    · exact ⟨Or.inl isChosen, binds⟩
    · rw [isDefinition_eq_false_of_mem_globals isGlobal] at isDefinition
      cases isDefinition
    · exact ⟨Or.inr ⟨isGlobal, most⟩, binds⟩
  · rintro ⟨isChosen | ⟨isGlobal, most⟩, binds⟩
    · exact ⟨⟨Or.inl isChosen, binds⟩, Or.inl (areDefinitions target isChosen).1⟩
    · exact ⟨⟨Or.inr isGlobal, binds⟩, Or.inr most⟩

theorem mem_opens_iff {number : Nat} {name : String} :
    name ∈ (source.searchRules chosen (source.binders chosen) index).opens number ↔
      number ∈ chosen ∧ name ∈ source.referencesOf number := by
  by_cases isChosen : number ∈ chosen
  · simp [searchRules, notDefinition, isChosen, (areDefinitions number isChosen).1]
  · simp [searchRules, isChosen]

/-- Whatever the segment or a definition reached from it reads is itself or a prerequisite. -/
theorem eq_or_mem_prerequisites_of_mem_targets
    {reader : Nat}
    {name : String}
    (reached : reader = index ∨ reader ∈ source.reachedFrom chosen index)
    (reads : name ∈ source.referencesOf reader)
    (leads : target ∈ (source.searchRules chosen (source.binders chosen) index).targets name) :
    target ∈ ({index} : Finset Nat) ∨ target ∈ source.prerequisites chosen index := by
  rw [mem_prerequisites_of_not_isDefinition notDefinition, Finset.mem_singleton]
  obtain ⟨isChosen | ⟨isGlobal, most⟩, binds⟩ :=
    (mem_targets_iff areDefinitions notDefinition).mp leads
  · right; left
    exact mem_reachedFrom_of_mem_calledBy reached (mem_calledBy_iff.mpr
      ⟨(areDefinitions target isChosen).2, isChosen, name, reads, binds⟩)
  · rcases Nat.eq_or_lt_of_le most with itself | below
    · exact Or.inl itself
    · exact Or.inr (Or.inr ⟨below, isGlobal, reader, reached, name, reads, binds⟩)

/-- A closed set holds all prerequisites. -/
theorem mem_of_mem_prerequisites
    {set : Set Nat}
    (closed : set ∈ (source.searchRules chosen (source.binders chosen) index).closedSets
      (source.searchedNames index) {index})
    (needed : target ∈ source.prerequisites chosen index) :
    target ∈ set := by
  obtain ⟨_, holdsStart, isClosed⟩ := closed
  have notItself : ∀ other ∈ chosen, other ∉ ({index} : Finset Nat) := by
    intro other isChosen itself
    have isDefinition := (areDefinitions other isChosen).1
    rw [Finset.mem_singleton.mp itself, notDefinition] at isDefinition
    cases isDefinition
  have holds : ∀ reader, reader = index ∨ reader ∈ chosen ∧ reader ∈ set →
      ∀ name ∈ source.referencesOf reader,
        ∀ target ∈ (source.searchRules chosen (source.binders chosen) index).targets name,
          target ∈ set := by
    rintro reader (rfl | ⟨isChosen, inSet⟩) name reads
    · exact holdsStart name ((mem_searchedNames_iff notDefinition).mpr reads)
    · exact isClosed reader inSet (notItself reader isChosen) name
        ((mem_opens_iff areDefinitions notDefinition).mpr ⟨isChosen, reads⟩)
  have calls : ∀ caller, caller = index ∨ caller ∈ chosen ∧ caller ∈ set →
      ∀ callee ∈ source.calledBy chosen caller, callee ∈ chosen ∧ callee ∈ set := by
    intro caller taken callee called
    obtain ⟨_, isChosen, name, reads, binds⟩ := mem_calledBy_iff.mp called
    exact ⟨isChosen, holds caller taken name reads callee
      ((mem_targets_iff areDefinitions notDefinition).mpr ⟨Or.inl isChosen, binds⟩)⟩
  have reachedInside : ∀ callee ∈ source.reachedFrom chosen index,
      callee ∈ chosen ∧ callee ∈ set := fun callee reached =>
    of_mem_reachWithin (fun caller taken => calls caller (Or.inr taken))
      (calls index (Or.inl rfl)) reached
  rcases (mem_prerequisites_of_not_isDefinition notDefinition).mp needed with
    reached | ⟨below, isGlobal, reader, reached, name, reads, binds⟩
  · exact (reachedInside target reached).2
  · exact holds reader (reached.imp_right (reachedInside reader)) name reads target
      ((mem_targets_iff areDefinitions notDefinition).mpr
        ⟨Or.inr ⟨isGlobal, Nat.le_of_lt below⟩, binds⟩)

theorem isLeast_prerequisites_of_not_isDefinition :
    IsLeast
      ((source.searchRules chosen (source.binders chosen) index).closedSets
        (source.searchedNames index) {index})
      {target | target ∈ ({index} : Finset Nat) ∨ target ∈ source.prerequisites chosen index} := by
  refine ⟨⟨fun _ => Or.inl, ?_, ?_⟩, ?_⟩
  · intro name start target leads
    have reads := (mem_searchedNames_iff notDefinition).mp start
    exact eq_or_mem_prerequisites_of_mem_targets areDefinitions notDefinition (Or.inl rfl) reads
      leads
  · intro number member other name opened target leads
    obtain ⟨isChosen, reads⟩ := (mem_opens_iff areDefinitions notDefinition).mp opened
    rcases (mem_prerequisites_of_not_isDefinition notDefinition).mp
      (member.resolve_left other) with reached | ⟨_, isGlobal, _⟩
    · exact eq_or_mem_prerequisites_of_mem_targets areDefinitions notDefinition (Or.inr reached)
        reads leads
    · exact absurd isChosen (notMem_chosen_of_mem_globals areDefinitions isGlobal)
  · rintro set closed target (itself | needed)
    · exact closed.1 target itself
    · exact mem_of_mem_prerequisites areDefinitions notDefinition closed needed

end Code

/-- In whatever order names are looked up, the segments found are the prerequisites. -/
theorem mergeSort_eq_prerequisites
    (areDefinitions : ∀ other ∈ chosen,
      source.isDefinition other = true ∧ other ∈ source.indices)
    {found : List Nat}
    (finds : Worklist.Finds (source.searchRules chosen (source.binders chosen) index)
      (source.searchedNames index) {index} found) :
    found.mergeSort = source.prerequisites chosen index := by
  have least :
      IsLeast
        ((source.searchRules chosen (source.binders chosen) index).closedSets
          (source.searchedNames index) {index})
        {target | target ∈ ({index} : Finset Nat) ∨
          target ∈ source.prerequisites chosen index} := by
    cases isDefinition : source.isDefinition index with
    | true => exact isLeast_prerequisites_of_isDefinition isDefinition
    | false => exact isLeast_prerequisites_of_not_isDefinition areDefinitions isDefinition
  have ascending := source.pairwise_prerequisites chosen index
  refine (pairwise_mergeSort_of_nodup finds.nodup).eq_of_mem_iff ascending fun target => ?_
  rw [List.mem_mergeSort]
  have same := Set.ext_iff.mp (finds.isLeast.unique least) target
  rw [Set.mem_ofPred_eq, Set.mem_ofPred_eq] at same
  constructor
  · exact fun member => (same.mp (Or.inr member)).resolve_left (finds.notMem_known target member)
  · intro member
    refine (same.mpr (Or.inr member)).resolve_left fun itself => ?_
    exact ne_of_mem_prerequisites (fun other isChosen => (areDefinitions other isChosen).1) member
      (Finset.mem_singleton.mp itself)

end Search

end ParsedSource

end Inliner
