import Inliner.Proofs.Selection.PlacementOrder
import Inliner.Proofs.Selection.PrerequisiteSearch

/-!
# Prerequisites as they are declared

The segments that have to run before a segment are found with a stack of names.  The name on top is
looked up in the table of binders; a segment that comes up for the first time is noted, and if it is
a definition that module-level code may call, the names that it reads are pushed.  The search ends,
and it finds what is declared: for a definition the selected segments that bind what its header
reads, and for module-level code the least set of definitions closed under calls, with the earlier
module-level code that any of these read.
-/

namespace Inliner

/-! ## Looking up from the top of a stack -/

/-- Items that wait on a stack, the next one last, the numbers known so far, and those among them
that were added since the start, in the order in which they came up. -/
structure LookupStack (Item : Type) where
  pending : List Item
  known : Finset Nat
  added : List Nat

namespace LookupStack

variable {Item : Type} {rules : LookupRules Item} {stack next : LookupStack Item}

/-- The same items as a worklist in no order. -/
def worklist (stack : LookupStack Item) : Worklist Item :=
  ⟨stack.pending, stack.known, stack.added⟩

/-- Notes a number that comes up, and pushes what it opens; a known number is passed over. -/
def note (rules : LookupRules Item) (stack : LookupStack Item) (target : Nat) :
    LookupStack Item :=
  if target ∈ stack.known then
    stack
  else
    ⟨stack.pending ++ rules.opens target, insert target stack.known, stack.added ++ [target]⟩

/-- Looks up the item on top, if there is one. -/
def pop? (rules : LookupRules Item) (stack : LookupStack Item) : Option (LookupStack Item) :=
  match stack.pending.getLast? with
  | none => none
  | some item =>
      some ((rules.targets item).foldl (note rules)
        { stack with pending := stack.pending.dropLast })

theorem foldl_note (rules : LookupRules Item) (targets : List Nat) (stack : LookupStack Item) :
    ∃ fresh : List Nat,
      fresh.Nodup ∧
        (∀ target, target ∈ fresh ↔ target ∈ targets ∧ target ∉ stack.known) ∧
        targets.foldl (note rules) stack =
          ⟨stack.pending ++ fresh.flatMap rules.opens, stack.known ∪ fresh.toFinset,
            stack.added ++ fresh⟩ := by
  induction targets generalizing stack with
  | nil => exact ⟨[], List.nodup_nil, by simp, by simp⟩
  | cons head tail inductionHypothesis =>
      obtain ⟨fresh, once, areFresh, noted⟩ := inductionHypothesis (stack.note rules head)
      rw [List.foldl_cons, noted]
      by_cases known : head ∈ stack.known
      · rw [note, if_pos known] at areFresh ⊢
        refine ⟨fresh, once, ?_, rfl⟩
        intro target
        rw [areFresh, List.mem_cons]
        constructor
        · rintro ⟨later, unknown⟩
          exact ⟨Or.inr later, unknown⟩
        · rintro ⟨rfl | later, unknown⟩
          · exact absurd known unknown
          · exact ⟨later, unknown⟩
      · rw [note, if_neg known] at areFresh ⊢
        simp only [Finset.mem_insert, not_or] at areFresh
        refine ⟨head :: fresh, ?_, ?_, ?_⟩
        · exact List.nodup_cons.mpr ⟨fun again => ((areFresh head).mp again).2.1 rfl, once⟩
        · intro target
          rw [List.mem_cons, areFresh, List.mem_cons]
          by_cases same : target = head
          · simp [same, known]
          · simp [same]
        · simp [Finset.insert_union]

/-- Looking up the item on top is a round of the worklist. -/
theorem round_of_pop? (popped : stack.pop? rules = some next) :
    Worklist.Round rules stack.worklist next.worklist := by
  unfold pop? at popped
  split at popped
  next => cases popped
  next item isLast =>
    obtain ⟨front, split⟩ := List.getLast?_eq_some_iff.mp isLast
    rw [split, List.dropLast_concat] at popped
    obtain ⟨fresh, once, areFresh, noted⟩ :=
      foldl_note rules (rules.targets item) { stack with pending := front }
    rw [noted, Option.some.injEq] at popped
    subst popped
    have reordered : (stack.pending : Multiset Item) = item ::ₘ (front : Multiset Item) := by
      rw [split, Multiset.cons_coe, Multiset.coe_eq_coe]
      exact List.perm_append_singleton item front
    rw [worklist, worklist, reordered, ← Multiset.coe_add]
    exact .lookUp once areFresh

theorem pending_eq_nil_of_pop? (finished : stack.pop? rules = none) : stack.pending = [] := by
  unfold pop? at finished
  split at finished
  next nothing => exact List.getLast?_eq_none_iff.mp nothing
  next => cases finished

/-- Looks up items until none is left. -/
def run
    (rules : LookupRules Item) (pool : Finset Nat)
    (inPool : ∀ item, ∀ target ∈ rules.targets item, target ∈ pool) (stack : LookupStack Item) :
    LookupStack Item :=
  match _popped : stack.pop? rules with
  | none => stack
  | some next => run rules pool inPool next
termination_by Worklist.effort rules pool stack.worklist
decreasing_by exact Worklist.effort_lt_of_round inPool (round_of_pop? _popped)

/-- The run ends without pending items, and it is a run of the worklist. -/
theorem finds_run
    {pool : Finset Nat} (inPool : ∀ item, ∀ target ∈ rules.targets item, target ∈ pool)
    (items : List Item) (known : Finset Nat) :
    Worklist.Finds rules items known (run rules pool inPool ⟨items, known, []⟩).added := by
  have rounds : ∀ stack : LookupStack Item,
      (run rules pool inPool stack).pending = [] ∧
        Relation.ReflTransGen (Worklist.Round rules) stack.worklist
          (run rules pool inPool stack).worklist := by
    intro stack
    induction stack using run.induct rules pool inPool with
    | case1 stack finished =>
        rw [run, finished]
        exact ⟨pending_eq_nil_of_pop? finished, .refl⟩
    | case2 stack next popped inductionHypothesis =>
        rw [run, popped]
        exact ⟨inductionHypothesis.1, .head (round_of_pop? popped) inductionHypothesis.2⟩
  obtain ⟨nothing, reached⟩ := rounds ⟨items, known, []⟩
  refine ⟨(run rules pool inPool ⟨items, known, []⟩).known, ?_⟩
  simpa only [worklist, nothing, Multiset.coe_nil] using reached

end LookupStack

namespace ParsedSource

variable {source : ParsedSource} {chosen : List Nat} {index : Nat}

/-! ## The search for prerequisites -/

/-- The table of binders that is built from the chosen definitions, in the order in which they are
given, and all module-level code. -/
def builtBinders (source : ParsedSource) (chosen : List Nat) : BinderTable :=
  source.binderTable chosen ((source.bindings (chosen ++ source.globals)).map Prod.fst).dedup

theorem builtBinders_eq (areIndices : ∀ other ∈ chosen, other ∈ source.indices) :
    source.builtBinders chosen = source.binders chosen :=
  binderTable_eq areIndices (fun _ => Iff.rfl) (List.nodup_dedup _) (by simp)

theorem mem_of_mem_builtBinders {name : String} {target : Nat}
    (member : target ∈ source.builtBinders chosen name) :
    target ∈ (chosen ++ source.globals).toFinset := by
  rw [builtBinders, binderTable, BinderTable.foldl_tidy (List.nodup_dedup _),
    BinderTable.foldl_push] at member
  have entered :
      target ∈ ((source.bindings (chosen ++ source.globals)).filter (·.1 = name)).map Prod.snd := by
    split at member
    next => simpa [mem_destutter_mergeSort] using member
    next => simpa using member
  obtain ⟨⟨bound, other⟩, isEntry, rfl⟩ := List.mem_map.mp entered
  exact List.mem_toFinset.mpr (mem_bindings_iff.mp (List.mem_filter.mp isEntry).1).1

/-- What a search leads to is among the chosen definitions and the module-level code. -/
theorem mem_of_mem_targets
    (source : ParsedSource) (chosen : List Nat) (index : Nat) (name : String) :
    ∀ target ∈ (source.searchRules chosen (source.builtBinders chosen) index).targets name,
      target ∈ (chosen ++ source.globals).toFinset :=
  fun _ leads => mem_of_mem_builtBinders (List.mem_filter.mp leads).1

/-- The segments found by looking up names in the table of binders, starting with the names that
the segment reads, sorted. -/
def searchedPrerequisites (source : ParsedSource) (chosen : List Nat) (index : Nat) : List Nat :=
  (LookupStack.run (source.searchRules chosen (source.builtBinders chosen) index)
    (chosen ++ source.globals).toFinset (source.mem_of_mem_targets chosen index)
    ⟨source.searchedNames index, {index}, []⟩).added.mergeSort

theorem searchedPrerequisites_eq
    (areDefinitions : ∀ other ∈ chosen, source.isDefinition other = true ∧ other ∈ source.indices)
    (index : Nat) :
    source.searchedPrerequisites chosen index = source.prerequisites chosen index := by
  have finds := LookupStack.finds_run (source.mem_of_mem_targets chosen index)
    (source.searchedNames index) {index}
  have built := builtBinders_eq fun other isChosen => (areDefinitions other isChosen).2
  unfold searchedPrerequisites
  generalize (LookupStack.run _ _ _ _).added = found at finds ⊢
  rw [built] at finds
  exact mergeSort_eq_prerequisites areDefinitions finds

/-! ## What is declared -/

/-- A segment reads, anywhere in it, a name that another segment binds. -/
def ReadsFrom (source : ParsedSource) (reader target : Nat) : Prop :=
  ∃ name ∈ source.referencesOf reader, name ∈ source.bindsOf target

/-- The sets of chosen definitions that hold, for the segment and for each of their members, the
chosen definitions that these read from. -/
def calledSets (source : ParsedSource) (chosen : List Nat) (index : Nat) : Set (Set Nat) :=
  {called | (∀ target ∈ called, target ∈ chosen) ∧
    ∀ reader, reader = index ∨ reader ∈ called →
      ∀ target ∈ chosen, source.ReadsFrom reader target → target ∈ called}

theorem mem_indices_of_isDefinition (isDefinition : source.isDefinition index = true) :
    index ∈ source.indices := by
  obtain ⟨name, defines⟩ := Option.isSome_iff_exists.mp isDefinition
  exact mem_indices_of_definitionOf? defines

theorem isLeast_reachedFrom
    (areIndices : ∀ other ∈ chosen, other ∈ source.indices) (index : Nat) :
    IsLeast (source.calledSets chosen index)
      {target | target ∈ source.reachedFrom chosen index} := by
  refine ⟨⟨fun _ => mem_chosen_of_mem_reachedFrom, ?_⟩, ?_⟩
  · intro reader reached target isChosen reads
    exact mem_reachedFrom_of_mem_calledBy reached
      (mem_calledBy_iff.mpr ⟨areIndices target isChosen, isChosen, reads⟩)
  · rintro called ⟨_, closed⟩ target reached
    have calls : ∀ reader, reader = index ∨ reader ∈ called →
        ∀ callee ∈ source.calledBy chosen reader, callee ∈ called := by
      intro reader taken callee isCalled
      obtain ⟨_, isChosen, reads⟩ := mem_calledBy_iff.mp isCalled
      exact closed reader taken callee isChosen reads
    exact of_mem_reachWithin (fun reader taken => calls reader (Or.inr taken))
      (calls index (Or.inl rfl)) reached

theorem mem_prerequisites_of_definition
    (areIndices : ∀ other ∈ chosen, other ∈ source.indices)
    (isDefinition : source.isDefinition index = true) (target : Nat) :
    target ∈ source.prerequisites chosen index ↔
      (target ∈ chosen ∨ target ∈ source.globals) ∧ target ≠ index ∧
        source.HeaderReads index target := by
  rw [mem_prerequisites_of_isDefinition isDefinition]
  simp only [mem_binders_iff areIndices]
  constructor
  · rintro ⟨different, name, reads, selected, binds⟩
    exact ⟨selected, different, name, reads, binds⟩
  · rintro ⟨selected, different, name, reads, binds⟩
    exact ⟨different, name, reads, selected, binds⟩

/-- For any chosen definitions the search with a stack of names ends, in whatever order names are
looked up, and gives the prerequisites in strictly ascending order.  For a chosen definition these
are the other selected segments that bind what its header reads.  For module-level code they are the
least set of chosen definitions that is closed under calls from it, together with the earlier
module-level code that the segment or one of these definitions reads from. -/
theorem search_finds_declared_prerequisites
    (areDefinitions : ∀ other ∈ chosen, source.isDefinition other = true) (index : Nat) :
    Worklist.Terminates (source.searchRules chosen (source.builtBinders chosen) index) ∧
      source.searchedPrerequisites chosen index = source.prerequisites chosen index ∧
      (source.prerequisites chosen index).Pairwise (· < ·) ∧
      (index ∈ chosen → ∀ target,
        target ∈ source.prerequisites chosen index ↔
          (target ∈ chosen ∨ target ∈ source.globals) ∧ target ≠ index ∧
            source.HeaderReads index target) ∧
      (index ∈ source.globals → ∃ called : Set Nat,
        IsLeast (source.calledSets chosen index) called ∧
          ∀ target,
            target ∈ source.prerequisites chosen index ↔
              target ∈ called ∨
                target ∈ source.globals ∧ target < index ∧
                  ∃ reader, (reader = index ∨ reader ∈ called) ∧
                    source.ReadsFrom reader target) := by
  have areIndices : ∀ other ∈ chosen, other ∈ source.indices := fun other isChosen =>
    mem_indices_of_isDefinition (areDefinitions other isChosen)
  refine ⟨Worklist.terminates_of_pool (source.mem_of_mem_targets chosen index), ?_,
    source.pairwise_prerequisites chosen index, ?_, ?_⟩
  · exact searchedPrerequisites_eq
      (fun other isChosen => ⟨areDefinitions other isChosen, areIndices other isChosen⟩) index
  · intro isChosen
    exact mem_prerequisites_of_definition areIndices (areDefinitions index isChosen)
  · intro isGlobal
    refine ⟨{target | target ∈ source.reachedFrom chosen index},
      isLeast_reachedFrom areIndices index, fun target => ?_⟩
    rw [mem_prerequisites_of_not_isDefinition (isDefinition_eq_false_of_mem_globals isGlobal),
      and_left_comm]
    rfl

/-- Two definitions that call each other, module-level code that the header of one of them reads,
and module-level code that calls the other one, with more of both kinds around them. -/
def mutualCalls : Text :=
  ("def base(n):\n    return step(n)\n\ndef step(n=LIMIT):\n    return base(n - 1) + OFFSET\n\n" ++
    "OFFSET = 1\n\ndef spare():\n    return base(0)\n\nLIMIT = OFFSET + 2\n\n" ++
    "TABLE = base(3)\n\nOFFSET = 5\n").toList

theorem search_mutualCalls :
    ∃ source,
      parse mutualCalls = .ok source ∧
      (∀ other ∈ [1, 0], source.isDefinition other = true) ∧
      source.searchedPrerequisites [1, 0] 1 = [4] ∧
      source.searchedPrerequisites [1, 0] 5 = [0, 1, 2, 4] ∧
      5 ∈ source.globals ∧
      ∃ called : Set Nat,
        IsLeast (source.calledSets [1, 0] 5) called ∧ 0 ∈ called ∧ 1 ∈ called := by
  have facts : ∃ source,
      parse mutualCalls = .ok source ∧
      (∀ other ∈ [1, 0], source.isDefinition other = true) ∧
      source.prerequisites [1, 0] 1 = [4] ∧
      source.prerequisites [1, 0] 5 = [0, 1, 2, 4] ∧
      5 ∈ source.globals ∧ 0 ∉ source.globals ∧ 1 ∉ source.globals :=
    ⟨(parse mutualCalls).toOption.getD default, by decide +kernel⟩
  obtain ⟨source, parsed, areDefinitions, ofHeader, ofCode, isGlobal, notGlobal, alsoNot⟩ := facts
  obtain ⟨_, header, _, _, _⟩ := search_finds_declared_prerequisites areDefinitions 1
  obtain ⟨_, code, _, _, declared⟩ := search_finds_declared_prerequisites areDefinitions 5
  obtain ⟨called, least, mem_iff⟩ := declared isGlobal
  refine ⟨source, parsed, areDefinitions, header.trans ofHeader, code.trans ofCode, isGlobal,
    called, least, ?_, ?_⟩
  · have needed := (mem_iff 0).mp (by simp [ofCode])
    exact needed.resolve_right fun earlier => notGlobal earlier.1
  · have needed := (mem_iff 1).mp (by simp [ofCode])
    exact needed.resolve_right fun earlier => alsoNot earlier.1

end ParsedSource

end Inliner
