import Inliner.Proofs.Selection.PrerequisiteSearch

/-!
# Selections made in any order

While a selection is made, some things may be taken in any order: the segments whose reads are
still to be followed, the chosen definitions as they are entered into the table of binders, the
names in this table as its entries are tidied up, and the names that are still to be looked up in
it.  A sort erases each of these orders.  So all ways to make a selection give the same table, and
the segments in the order in which `select` gives them.
-/

namespace Inliner.ParsedSource

variable {source : ParsedSource} {names : List String} {policy : SymbolPolicy}

/-! ## Following what segments read -/

/-- A segment leads to the definitions of the names that it reads, and these are followed next. -/
def dependencyRules (source : ParsedSource) : LookupRules Nat where
  targets := source.dependenciesOf
  opens index := [index]

theorem terminates_dependencyRules (source : ParsedSource) :
    Worklist.Terminates source.dependencyRules := by
  have inIndices : ∀ index, ∀ target ∈ source.dependencyRules.targets index,
      target ∈ source.indices.toFinset := fun _ _ depends =>
    List.mem_toFinset.mpr (isDefinition_of_mem_dependenciesOf depends).2
  exact Worklist.terminates_of_pool inIndices

/-- The segments whose reads are followed from the start on. -/
def followed (source : ParsedSource) (names : List String) : SymbolPolicy → List Nat
  | .exact => []
  | .withDependencies => source.requested names ++ source.globals

theorem isLeast_chosen_closedSets
    (source : ParsedSource) (names : List String) (policy : SymbolPolicy) :
    IsLeast
      (source.dependencyRules.closedSets (source.followed names policy)
        (source.requested names).toFinset)
      {index | index ∈ source.chosen names policy} := by
  cases policy with
  | exact =>
      refine ⟨⟨fun index => List.mem_toFinset.mp, ?_, ?_⟩, ?_⟩
      · intro index start
        cases start
      · intro index isChosen unknown
        exact absurd (List.mem_toFinset.mpr isChosen) unknown
      · intro set closed index isChosen
        exact closed.1 index (List.mem_toFinset.mpr isChosen)
  | withDependencies =>
      refine ⟨⟨?_, ?_, ?_⟩, ?_⟩
      · exact fun index wanted => requested_subset_chosen (List.mem_toFinset.mp wanted)
      · intro user start index depends
        refine mem_chosen_of_mem_dependenciesOf ?_ depends
        have parts := List.mem_append.mp (Multiset.mem_coe.mp start)
        exact parts.symm.imp_right requested_subset_chosen
      · intro user isChosen _ other opened index depends
        obtain rfl := List.mem_singleton.mp opened
        exact mem_chosen_of_mem_dependenciesOf (Or.inr isChosen) depends
      · intro set closed index isChosen
        obtain ⟨holdsWanted, holdsStart, isClosed⟩ := closed
        have kept : ∀ user, user ∈ set → ∀ target ∈ source.dependenciesOf user, target ∈ set := by
          intro user inSet target depends
          by_cases wanted : user ∈ source.requested names
          · exact holdsStart user (List.mem_append_left _ wanted) target depends
          · exact isClosed user inSet (mt List.mem_toFinset.mp wanted) user
              (List.mem_singleton_self user) target depends
        refine of_mem_reachWithin kept ?_ isChosen
        intro other start
        rcases List.mem_append.mp start with wanted | used
        · exact holdsWanted other (List.mem_toFinset.mpr wanted)
        · obtain ⟨user, isGlobal, depends⟩ := List.mem_flatMap.mp used
          exact holdsStart user (List.mem_append_right _ isGlobal) other depends

/-- In whatever order reads are followed, the definitions asked for and those found are the chosen
ones. -/
theorem mem_chosen_iff_of_finds
    {dependencies : List Nat}
    (finds : Worklist.Finds source.dependencyRules (source.followed names policy)
      (source.requested names).toFinset dependencies) (index : Nat) :
    index ∈ source.chosen names policy ↔
      index ∈ source.requested names ∨ index ∈ dependencies := by
  have same := (source.isLeast_chosen_closedSets names policy).unique finds.isLeast
  have membership := Set.ext_iff.mp same index
  rwa [Set.mem_ofPred_eq, Set.mem_ofPred_eq, List.mem_toFinset] at membership

theorem mergeSort_eq_furtherDefinitions
    {dependencies : List Nat}
    (finds : Worklist.Finds source.dependencyRules (source.followed names policy)
      (source.requested names).toFinset dependencies) :
    dependencies.mergeSort =
      source.furtherDefinitions (source.requested names) (source.chosen names policy) := by
  refine (pairwise_mergeSort_of_nodup finds.nodup).eq_of_mem_iff
    (source.pairwise_filter_indices _) fun index => ?_
  rw [List.mem_mergeSort, furtherDefinitions, List.mem_filter, Bool.and_eq_true, decide_eq_true_eq,
    decide_eq_true_eq]
  constructor
  · intro found
    have isChosen := (mem_chosen_iff_of_finds finds index).mpr (Or.inr found)
    have notWanted := finds.notMem_known index found
    exact ⟨(isDefinition_of_mem_chosen isChosen).2, isChosen, mt List.mem_toFinset.mpr notWanted⟩
  · rintro ⟨_, isChosen, notWanted⟩
    exact ((mem_chosen_iff_of_finds finds index).mp isChosen).resolve_left notWanted

/-! ## All ways to make a selection -/

/-- A way to make a selection, with every order that may be chosen freely. -/
structure SelectionOrders
    (source : ParsedSource) (names : List String) (policy : SymbolPolicy) where
  dependencies : List Nat
  follows : Worklist.Finds source.dependencyRules (source.followed names policy)
    (source.requested names).toFinset dependencies
  enumeration : List Nat
  enumerates : enumeration.Perm (source.requested names ++ dependencies)
  keys : List String
  keysOnce : keys.Nodup
  areKeys : ∀ name,
    name ∈ keys ↔ ∃ index, (name, index) ∈ source.bindings (enumeration ++ source.globals)
  found : Nat → List Nat
  searches : ∀ index,
    Worklist.Finds (source.searchRules enumeration (source.binderTable enumeration keys) index)
      (source.searchedNames index) {index} (found index)

namespace SelectionOrders

variable (orders : SelectionOrders source names policy)

/-- The table of binders that is built this way. -/
def table : BinderTable := source.binderTable orders.enumeration orders.keys

/-- What has to run before a segment. -/
def needs (index : Nat) : List Nat := (orders.found index).mergeSort

/-- The module-level code at the start that needs no chosen definition. -/
def leading : List Nat :=
  source.globals.takeWhile fun index => (orders.needs index).all (· ∉ orders.enumeration)

/-- The selection that is made this way. -/
def selection : Selection :=
  let placement := Placement.visitAll
    (fun index => (source.previousGlobal? index).toList ++ orders.needs index)
    (source.segments.length + 1)
    (orders.leading ++ source.requested names ++ source.globals ++ orders.dependencies.mergeSort)
  ⟨placement.emitted, source.missing names⟩

theorem mem_enumeration_iff (index : Nat) :
    index ∈ orders.enumeration ↔ index ∈ source.chosen names policy := by
  rw [orders.enumerates.mem_iff, List.mem_append, mem_chosen_iff_of_finds orders.follows]

theorem table_eq : orders.table = source.binders (source.chosen names policy) :=
  binderTable_eq (fun _ isChosen => (isDefinition_of_mem_chosen isChosen).2)
    orders.mem_enumeration_iff orders.keysOnce orders.areKeys

theorem needs_eq (index : Nat) :
    orders.needs index = source.prerequisites (source.chosen names policy) index := by
  have searches := orders.searches index
  have sameRules :
      source.searchRules orders.enumeration (source.binderTable orders.enumeration orders.keys)
          index =
        source.searchRules (source.chosen names policy)
          (source.binders (source.chosen names policy)) index := by
    simp only [← table_eq orders, table, searchRules, orders.mem_enumeration_iff]
  rw [sameRules] at searches
  exact mergeSort_eq_prerequisites (fun _ => isDefinition_of_mem_chosen) searches

theorem leading_eq : orders.leading = source.leadingGlobals (source.chosen names policy) := by
  simp only [leading, leadingGlobals, orders.needs_eq, orders.mem_enumeration_iff]

theorem selection_eq : orders.selection = source.select names policy := by
  simp only [selection, select, visitOrder, orders.needs_eq, orders.leading_eq,
    mergeSort_eq_furtherDefinitions orders.follows]
  rfl

end SelectionOrders

/-- The chosen definitions may be entered into the table of binders in any order. -/
theorem exists_selectionOrders
    {enumeration : List Nat}
    (enumerates : enumeration.Perm (source.requested names ++
      source.furtherDefinitions (source.requested names) (source.chosen names policy))) :
    ∃ orders : SelectionOrders source names policy, orders.enumeration = enumeration := by
  obtain ⟨dependencies, follows⟩ := source.terminates_dependencyRules.exists_finds
    (source.followed names policy) (source.requested names).toFinset
  rw [← mergeSort_eq_furtherDefinitions follows] at enumerates
  replace enumerates : enumeration.Perm (source.requested names ++ dependencies) :=
    enumerates.trans ((List.mergeSort_perm dependencies _).append_left _)
  have mem_enumeration : ∀ index,
      index ∈ enumeration ↔ index ∈ source.chosen names policy := by
    intro index
    rw [enumerates.mem_iff, List.mem_append, mem_chosen_iff_of_finds follows]
  set keys := ((source.bindings (enumeration ++ source.globals)).map Prod.fst).dedup with keys_eq
  have areKeys : ∀ name, name ∈ keys ↔
      ∃ index, (name, index) ∈ source.bindings (enumeration ++ source.globals) := by
    intro name
    simp [keys_eq]
  have table_eq : source.binderTable enumeration keys =
      source.binders (source.chosen names policy) :=
    binderTable_eq (fun _ isChosen => (isDefinition_of_mem_chosen isChosen).2) mem_enumeration
      (List.nodup_dedup _) areKeys
  have searchable : ∀ index, ∃ found,
      Worklist.Finds (source.searchRules enumeration (source.binderTable enumeration keys) index)
        (source.searchedNames index) {index} found := by
    intro index
    rw [table_eq]
    exact (source.terminates_searchRules enumeration (source.chosen names policy)
      index).exists_finds _ _
  choose found searches using searchable
  exact ⟨⟨dependencies, follows, enumeration, enumerates, keys, List.nodup_dedup _, areKeys, found,
    searches⟩, rfl⟩

/-- Both worklists come to an end in any order, and a selection can be made with the chosen
definitions enumerated in any order.  In whatever orders this is done, the table of binders is the
same, and the selection is the one that `select` gives. -/
theorem selection_eq_in_any_order
    (source : ParsedSource) (names : List String) (policy : SymbolPolicy) :
    Worklist.Terminates source.dependencyRules ∧
      (∀ enumeration : List Nat,
        enumeration.Perm (source.requested names ++
            source.furtherDefinitions (source.requested names) (source.chosen names policy)) →
          ∃ orders : SelectionOrders source names policy, orders.enumeration = enumeration) ∧
      ∀ first second : SelectionOrders source names policy,
        (∀ index, Worklist.Terminates (source.searchRules first.enumeration first.table index)) ∧
          first.table = second.table ∧
          first.selection = second.selection ∧
          second.selection = source.select names policy := by
  refine ⟨source.terminates_dependencyRules, fun _ => exists_selectionOrders,
    fun first second => ⟨?_, ?_, ?_, ?_⟩⟩
  · intro index
    rw [first.table_eq]
    exact source.terminates_searchRules _ _ index
  · rw [first.table_eq, second.table_eq]
  · rw [first.selection_eq, second.selection_eq]
  · exact second.selection_eq

end Inliner.ParsedSource
