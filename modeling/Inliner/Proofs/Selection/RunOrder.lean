import Inliner.Proofs.Selection.Visits
import Inliner.Selection.Select

/-!
# Selections that run from top to bottom

A statement reads some names while it runs, and fails unless an earlier statement has bound them.
The segments of a selection are placed behind what they need, but what they need may need them in
turn.  This module says exactly when the selection runs: each name a segment reads is bound by
something that the segment needs and that is not waiting for the segment, or by module-level code
from further down that is drawn ahead of it.
-/

namespace Inliner

open Syntax

/-! ## Reading after binding -/

/-- Every name that a statement reads while it runs, if it is one of some names that are bound, is
known or bound by a statement before. -/
def RunsFrom (bound : List String) : List String → List Statement → Prop
  | _, [] => True
  | known, statement :: rest =>
      (∀ name ∈ statement.eagerReferences, name ∈ bound → name ∈ known) ∧
        RunsFrom bound (known ++ statement.binds) rest

instance decidableRunsFrom (bound : List String) :
    ∀ (known : List String) (statements : List Statement),
      Decidable (RunsFrom bound known statements)
  | _, [] => .isTrue trivial
  | known, statement :: rest =>
      have := decidableRunsFrom bound (known ++ statement.binds) rest
      inferInstanceAs (Decidable (_ ∧ _))

/-- Statements run from top to bottom: what they read while they run, if any of them binds it, has
been bound before. -/
def RunsTopToBottom (statements : List Statement) : Prop :=
  RunsFrom (statements.flatMap (·.binds)) [] statements

instance (statements : List Statement) : Decidable (RunsTopToBottom statements) :=
  inferInstanceAs (Decidable (RunsFrom _ _ _))

theorem runsFrom_append (bound known : List String) (first second : List Statement) :
    RunsFrom bound known (first ++ second) ↔
      RunsFrom bound known first ∧
        RunsFrom bound (known ++ first.flatMap (·.binds)) second := by
  induction first generalizing known with
  | nil => simp [RunsFrom]
  | cons head tail inductionHypothesis =>
      simp only [List.cons_append, RunsFrom, inductionHypothesis, List.flatMap_cons,
        List.append_assoc, and_assoc]

theorem runsFrom_iff (bound known : List String) (statements : List Statement) :
    RunsFrom bound known statements ↔
      ∀ earlier statement later, statements = earlier ++ statement :: later →
        ∀ name ∈ statement.eagerReferences, name ∈ bound →
          name ∈ known ∨ ∃ other ∈ earlier, name ∈ other.binds := by
  induction statements generalizing known with
  | nil => simp [RunsFrom]
  | cons head tail inductionHypothesis =>
      rw [RunsFrom, inductionHypothesis]
      constructor
      · rintro ⟨headRuns, tailRuns⟩ earlier statement later split name read isBound
        cases earlier with
        | nil =>
            obtain ⟨rfl, rfl⟩ := List.cons.inj split
            exact Or.inl (headRuns name read isBound)
        | cons first earlier =>
            obtain ⟨rfl, rfl⟩ := List.cons.inj split
            rcases tailRuns earlier statement later rfl name read isBound with known | before
            · rcases List.mem_append.mp known with old | new
              · exact Or.inl old
              · exact Or.inr ⟨head, List.mem_cons_self, new⟩
            · obtain ⟨other, member, binds⟩ := before
              exact Or.inr ⟨other, List.mem_cons_of_mem head member, binds⟩
      · intro runs
        refine ⟨?_, ?_⟩
        · intro name read isBound
          simpa using runs [] head tail rfl name read isBound
        · rintro earlier statement later rfl name read isBound
          rcases runs (head :: earlier) statement later rfl name read isBound with
            old | ⟨other, member, binds⟩
          · exact Or.inl (List.mem_append_left _ old)
          · rcases List.mem_cons.mp member with rfl | later
            · exact Or.inl (List.mem_append_right _ binds)
            · exact Or.inr ⟨other, later, binds⟩

namespace ParsedSource

/-- The statements of some segments, in order. -/
def statementsIn (source : ParsedSource) (order : List Nat) : List Statement :=
  order.flatMap source.statementsOf

theorem flatMap_binds_statementsIn (source : ParsedSource) (order : List Nat) :
    (source.statementsIn order).flatMap (·.binds) = order.flatMap source.bindsOf := by
  simp only [statementsIn, List.flatMap_assoc]
  rfl

theorem runsFrom_statementsIn
    (source : ParsedSource) (bound known : List String) (order : List Nat) :
    RunsFrom bound known (source.statementsIn order) ↔
      ∀ before index after, order = before ++ index :: after →
        RunsFrom bound (known ++ before.flatMap source.bindsOf) (source.statementsOf index) := by
  induction order generalizing known with
  | nil => simp [statementsIn, RunsFrom]
  | cons head tail inductionHypothesis =>
      have unfolded :
          source.statementsIn (head :: tail) =
            source.statementsOf head ++ source.statementsIn tail := rfl
      rw [unfolded, runsFrom_append, inductionHypothesis]
      constructor
      · rintro ⟨headRuns, tailRuns⟩ before index after split
        cases before with
        | nil =>
            obtain ⟨rfl, rfl⟩ := List.cons.inj split
            simpa using headRuns
        | cons first before =>
            obtain ⟨rfl, rfl⟩ := List.cons.inj split
            have runs := tailRuns before index after rfl
            rw [List.append_assoc] at runs
            exact runs
      · intro runs
        refine ⟨by simpa using runs [] head tail rfl, ?_⟩
        rintro before index after rfl
        have later := runs (head :: before) index after rfl
        rw [List.append_assoc]
        exact later

/-- The selection of some segments runs from top to bottom if and only if each segment does after
those before it. -/
theorem runsTopToBottom_statementsIn_iff (source : ParsedSource) (order : List Nat) :
    RunsTopToBottom (source.statementsIn order) ↔
      ∀ before index after, order = before ++ index :: after →
        ∀ earlier statement later, source.statementsOf index = earlier ++ statement :: later →
          ∀ name ∈ statement.eagerReferences, name ∈ order.flatMap source.bindsOf →
            name ∈ before.flatMap source.bindsOf ∨ ∃ other ∈ earlier, name ∈ other.binds := by
  rw [RunsTopToBottom, flatMap_binds_statementsIn, runsFrom_statementsIn]
  simp only [runsFrom_iff, List.nil_append]

end ParsedSource

/-! ## What is read while a statement runs is read -/

theorem Syntax.mem_insertName {name identifier : String} :
    ∀ {names : List String}, name ∈ insertName identifier names ↔ name = identifier ∨ name ∈ names
  | [] => by simp [insertName]
  | first :: rest => by
      unfold insertName
      split
      · simp
      · split
        next same => simp [same]
        next =>
          rw [List.mem_cons, mem_insertName, List.mem_cons]
          tauto

theorem Syntax.mem_nameSet {name : String} {identifiers : List String} :
    name ∈ nameSet identifiers ↔ name ∈ identifiers := by
  induction identifiers with
  | nil => simp [nameSet]
  | cons head tail inductionHypothesis =>
      have unfolded : nameSet (head :: tail) = insertName head (nameSet tail) := rfl
      rw [unfolded, mem_insertName, inductionHypothesis, List.mem_cons]

theorem Syntax.Tree.eagerReferences_subset (tree : Tree) :
    tree.eagerReferences ⊆ tree.references := by
  intro name read
  rw [references, mem_nameSet]
  rw [eagerReferences, mem_nameSet] at read
  exact (List.filter_sublist.map _).subset read

namespace ParsedSource

theorem eagerReferencesOf_subset
    {text : Text} {source : ParsedSource} (parsed : parse text = .ok source) (index : Nat) :
    source.eagerReferencesOf index ⊆ source.referencesOf index := by
  have statementwise :
      ∀ statement ∈ source.statements,
        statement.eagerReferences ⊆ statement.references := by
    unfold parse at parsed
    split at parsed
    next nodes _ =>
      rw [← Except.ok.inj parsed]
      intro statement member
      obtain ⟨node, _, rfl⟩ := List.mem_map.mp member
      exact node.readTree.eagerReferences_subset
    next => simp at parsed
  intro name read
  obtain ⟨statement, member, eager⟩ := List.mem_flatMap.mp read
  refine List.mem_flatMap.mpr ⟨statement, member, statementwise statement ?_ eager⟩
  unfold statementsOf segmentStatements at member
  split at member
  · exact List.mem_of_mem_drop (List.mem_of_mem_take member)
  · simp at member

end ParsedSource

/-! ## What is chosen -/

theorem mem_reachWithin_of_mem
    {next : Nat → List Nat} {item : Nat} :
    ∀ {rounds : Nat} {known : List Nat}, item ∈ known → item ∈ reachWithin next rounds known
  | 0, _, member => member
  | rounds + 1, known, member => by
      unfold reachWithin
      split
      · exact member
      · exact mem_reachWithin_of_mem (List.mem_append_left _ member)

theorem of_mem_reachWithin
    {next : Nat → List Nat} {kind : Nat → Prop} {item : Nat}
    (kept : ∀ item, kind item → ∀ successor ∈ next item, kind successor) :
    ∀ {rounds : Nat} {known : List Nat},
      (∀ item ∈ known, kind item) → item ∈ reachWithin next rounds known → kind item
  | 0, _, start, reached => start item reached
  | rounds + 1, known, start, reached => by
      unfold reachWithin at reached
      split at reached
      · exact start item reached
      next =>
        refine of_mem_reachWithin kept ?_ reached
        intro other member
        rcases List.mem_append.mp member with old | new
        · exact start other old
        · have isNew := List.mem_eraseDups.mp new
          obtain ⟨successor, _⟩ := List.mem_filter.mp isNew
          obtain ⟨before, known, follows⟩ := List.mem_flatMap.mp successor
          exact kept before (start before known) other follows

namespace ParsedSource

variable {source : ParsedSource}

theorem isDefinition_of_definitionIndex?
    {name : String} {index : Nat} (found : source.definitionIndex? name = some index) :
    source.isDefinition index = true ∧ index ∈ source.indices := by
  have defines := List.find?_some found
  have member := List.mem_of_find?_eq_some found
  refine ⟨?_, List.mem_reverse.mp member⟩
  rw [isDefinition, eq_of_beq defines]
  rfl

theorem isDefinition_of_mem_dependenciesOf
    {index target : Nat} (member : target ∈ source.dependenciesOf index) :
    source.isDefinition target = true ∧ target ∈ source.indices := by
  obtain ⟨name, _, found⟩ := List.mem_filterMap.mp member
  exact isDefinition_of_definitionIndex? found

theorem isDefinition_of_mem_requested
    {names : List String} {index : Nat} (member : index ∈ source.requested names) :
    source.isDefinition index = true ∧ index ∈ source.indices := by
  rw [requested, List.mem_eraseDups] at member
  obtain ⟨name, _, found⟩ := List.mem_filterMap.mp member
  exact isDefinition_of_definitionIndex? found

/-- Only definitions are chosen. -/
theorem isDefinition_of_mem_chosen
    {names : List String} {policy : SymbolPolicy} {index : Nat}
    (member : index ∈ source.chosen names policy) :
    source.isDefinition index = true ∧ index ∈ source.indices := by
  cases policy with
  | exact => exact isDefinition_of_mem_requested member
  | withDependencies =>
      refine of_mem_reachWithin
        (fun _ _ _ follows => isDefinition_of_mem_dependenciesOf follows) ?_ member
      intro other start
      rcases List.mem_append.mp start with wanted | used
      · exact isDefinition_of_mem_requested wanted
      · obtain ⟨_, _, dependency⟩ := List.mem_flatMap.mp used
        exact isDefinition_of_mem_dependenciesOf dependency

theorem requested_subset_chosen
    {names : List String} {policy : SymbolPolicy} {index : Nat}
    (member : index ∈ source.requested names) :
    index ∈ source.chosen names policy := by
  cases policy with
  | exact => exact member
  | withDependencies => exact mem_reachWithin_of_mem (List.mem_append_left _ member)

/-! ## What is visited -/

theorem mem_globals_iff {index : Nat} :
    index ∈ source.globals ↔ index ∈ source.indices ∧ source.isGlobal index = true := by
  rw [globals, List.mem_filter]

/-- The segments that can come up in a selection. -/
def selectable (source : ParsedSource) (chosen : List Nat) : List Nat :=
  source.indices.filter (source.isSelected chosen)

theorem mem_selectable_iff {chosen : List Nat} {index : Nat} :
    index ∈ source.selectable chosen ↔
      index ∈ source.indices ∧ (index ∈ chosen ∨ source.isGlobal index = true) := by
  rw [selectable, List.mem_filter, isSelected, Bool.or_eq_true, decide_eq_true_eq]

theorem mem_selectable_of_mem_globals
    {chosen : List Nat} {index : Nat} (member : index ∈ source.globals) :
    index ∈ source.selectable chosen := by
  obtain ⟨known, isGlobal⟩ := mem_globals_iff.mp member
  exact mem_selectable_iff.mpr ⟨known, Or.inr isGlobal⟩

theorem mem_chosen_of_mem_reachedFrom
    {chosen : List Nat} {index target : Nat}
    (reached : target ∈ source.reachedFrom chosen index) :
    target ∈ chosen := by
  have called :
      ∀ caller, ∀ callee ∈ source.calledBy chosen caller, callee ∈ chosen := by
    intro caller callee member
    rw [calledBy, List.mem_filter, Bool.and_eq_true, decide_eq_true_eq] at member
    exact member.2.1
  exact of_mem_reachWithin (fun caller _ => called caller) (called index) reached

theorem mem_globals_of_previousGlobal?
    {index previous : Nat} (found : source.previousGlobal? index = some previous) :
    previous ∈ source.globals ∧ previous < index := by
  unfold previousGlobal? at found
  split at found
  · have member := List.mem_of_getLast? found
    rw [List.mem_filter, decide_eq_true_eq] at member
    exact member
  · simp at found

theorem mem_selectable_of_mem_prerequisites
    {chosen : List Nat} {index target : Nat}
    (member : target ∈ source.prerequisites chosen index) :
    target ∈ source.selectable chosen := by
  unfold prerequisites at member
  split at member
  · rw [List.mem_filter, Bool.and_eq_true, Bool.and_eq_true] at member
    exact List.mem_filter.mpr ⟨member.1, member.2.1.2⟩
  · simp only [List.mem_filter, Bool.or_eq_true, Bool.and_eq_true, decide_eq_true_eq] at member
    obtain ⟨known, reached | ⟨⟨_, isGlobal⟩, _⟩⟩ := member
    · exact mem_selectable_iff.mpr ⟨known, Or.inl (mem_chosen_of_mem_reachedFrom reached)⟩
    · exact mem_selectable_iff.mpr ⟨known, Or.inr isGlobal⟩

theorem mem_selectable_of_mem_placedBefore
    {chosen : List Nat} {index target : Nat}
    (member : target ∈ source.placedBefore chosen index) :
    target ∈ source.selectable chosen := by
  rcases List.mem_append.mp member with previous | needed
  · exact mem_selectable_of_mem_globals
      (mem_globals_of_previousGlobal? (Option.mem_toList.mp previous)).1
  · exact mem_selectable_of_mem_prerequisites needed

/-- No segment is placed before itself. -/
theorem ne_of_mem_placedBefore
    {names : List String} {policy : SymbolPolicy} {index target : Nat}
    (member : target ∈ source.placedBefore (source.chosen names policy) index) :
    target ≠ index := by
  rcases List.mem_append.mp member with previous | needed
  · exact Nat.ne_of_lt (mem_globals_of_previousGlobal? (Option.mem_toList.mp previous)).2
  · unfold prerequisites at needed
    split at needed
    · rw [List.mem_filter, Bool.and_eq_true, Bool.and_eq_true, decide_eq_true_eq] at needed
      exact needed.2.1.1
    next notDefinition =>
      simp only [List.mem_filter, Bool.or_eq_true, Bool.and_eq_true, decide_eq_true_eq] at needed
      rintro rfl
      rcases needed.2 with reached | ⟨⟨below, _⟩, _⟩
      · exact notDefinition
          (isDefinition_of_mem_chosen (mem_chosen_of_mem_reachedFrom reached)).1
      · exact Nat.lt_irrefl target below

theorem mem_selectable_of_mem_visitOrder
    {names : List String} {policy : SymbolPolicy} {index : Nat}
    (member : index ∈
      source.visitOrder (source.requested names) (source.chosen names policy)) :
    index ∈ source.selectable (source.chosen names policy) := by
  simp only [visitOrder, List.mem_append] at member
  rcases member with ((leading | wanted) | isGlobal) | further
  · exact mem_selectable_of_mem_globals ((List.takeWhile_sublist _).subset leading)
  · exact mem_selectable_iff.mpr
      ⟨(isDefinition_of_mem_requested wanted).2, Or.inl (requested_subset_chosen wanted)⟩
  · exact mem_selectable_of_mem_globals isGlobal
  · rw [furtherDefinitions, List.mem_filter, Bool.and_eq_true, decide_eq_true_eq] at further
    exact mem_selectable_iff.mpr ⟨further.1, Or.inl further.2.1⟩

/-! ## The course of a selection -/

/-- The segments under way when a segment comes up in the selection of some names. -/
def underWay
    (source : ParsedSource) (names : List String) (policy : SymbolPolicy) (index : Nat) :
    List Nat :=
  Placement.underWay (source.placedBefore (source.chosen names policy))
    (source.segments.length + 1)
    (source.visitOrder (source.requested names) (source.chosen names policy)) index

/-- The segments entered in the selection of some names, each with those under way then. -/
def selectionLog
    (source : ParsedSource) (names : List String) (policy : SymbolPolicy) :
    List (Nat × List Nat) :=
  Placement.follow
    (Placement.visit (source.placedBefore (source.chosen names policy))
      (source.segments.length + 1))
    (Placement.entries (source.placedBefore (source.chosen names policy))
      (source.segments.length + 1))
    .empty (source.visitOrder (source.requested names) (source.chosen names policy))

theorem visits_select (source : ParsedSource) (names : List String) (policy : SymbolPolicy) :
    Placement.Visits (source.placedBefore (source.chosen names policy)) .empty
      (source.visitOrder (source.requested names) (source.chosen names policy))
      (source.selectionLog names policy)
      (Placement.visitAll (source.placedBefore (source.chosen names policy))
        (source.segments.length + 1)
        (source.visitOrder (source.requested names) (source.chosen names policy))) := by
  have bound :
      (source.selectable (source.chosen names policy)).length < source.segments.length + 1 := by
    have atMost := List.length_filter_le (source.isSelected (source.chosen names policy))
      source.indices
    rw [indices, List.length_range] at atMost
    exact Nat.lt_succ_of_le atMost
  exact Placement.visits_visitAll
    (fun _ _ _ needed => mem_selectable_of_mem_placedBefore needed)
    (fun _ visited => mem_selectable_of_mem_visitOrder visited) bound

theorem nodup_select (source : ParsedSource) (names : List String) (policy : SymbolPolicy) :
    (source.select names policy).segments.Nodup :=
  ((source.visits_select names policy).nodup_and_disjoint
    List.nodup_nil (List.disjoint_nil_left _)).1

theorem mem_selectionLog_underWay
    {names : List String} {policy : SymbolPolicy} {index : Nat}
    (placed : index ∈ (source.select names policy).segments) :
    (index, source.underWay names policy index) ∈ source.selectionLog names policy :=
  (source.visits_select names policy).mem_log_underWay placed

theorem mem_selectable_of_mem_select
    {names : List String} {policy : SymbolPolicy} {index : Nat}
    (placed : index ∈ (source.select names policy).segments) :
    index ∈ source.selectable (source.chosen names policy) :=
  (source.visits_select names policy).mem_pool_of_mem_log
    (fun _ _ _ needed => mem_selectable_of_mem_placedBefore needed)
    (fun _ visited => mem_selectable_of_mem_visitOrder visited)
    (mem_selectionLog_underWay placed)

/-- A segment comes behind what it needs, unless that is under way when the segment comes up. -/
theorem precedes_of_mem_placedBefore
    {names : List String} {policy : SymbolPolicy} {index need : Nat}
    (placed : index ∈ (source.select names policy).segments)
    (needed : need ∈ source.placedBefore (source.chosen names policy) index)
    (idle : need ∉ source.underWay names policy index) :
    Precedes need index (source.select names policy).segments :=
  (source.visits_select names policy).precedes_of_needed
    (mem_selectionLog_underWay placed) needed idle (ne_of_mem_placedBefore needed)

/-- A segment comes before what is under way when the segment comes up. -/
theorem precedes_of_mem_underWay
    {names : List String} {policy : SymbolPolicy} {index waiting : Nat}
    (placed : index ∈ (source.select names policy).segments)
    (under : waiting ∈ source.underWay names policy index) :
    Precedes index waiting (source.select names policy).segments := by
  rcases (source.visits_select names policy).precedes_of_underWay
    (mem_selectionLog_underWay placed) under with early | order
  · simp [Placement.empty] at early
  · exact order

/-- What is under way when a segment comes up needs the segment, directly or through others. -/
theorem needs_of_mem_underWay
    {names : List String} {policy : SymbolPolicy} {index waiting : Nat}
    (placed : index ∈ (source.select names policy).segments)
    (under : waiting ∈ source.underWay names policy index) :
    Relation.TransGen
      (fun item need => need ∈ source.placedBefore (source.chosen names policy) item)
      waiting index := by
  refine (source.visits_select names policy).needs_of_underWay ?_
    (mem_selectionLog_underWay placed) under
  intro other visiting
  simp [Placement.empty] at visiting

theorem le_getLast_of_ascending
    {items : List Nat} {item : Nat} (ascending : items.Pairwise (· < ·))
    (member : item ∈ items) (nonempty : items ≠ []) :
    item ≤ items.getLast nonempty := by
  have split := List.dropLast_concat_getLast nonempty
  have splitAscending : (items.dropLast ++ [items.getLast nonempty]).Pairwise (· < ·) := by
    rw [split]
    exact ascending
  rw [← split] at member
  rcases List.mem_append.mp member with earlier | last
  · exact Nat.le_of_lt
      ((List.pairwise_append.mp splitAscending).2.2 item earlier _ (List.mem_singleton_self _))
  · exact Nat.le_of_eq (List.mem_singleton.mp last)

theorem inRow_globals (source : ParsedSource) (chosen : List Nat) :
    Placement.Visits.InRow (source.placedBefore chosen) (· ∈ source.globals) := by
  intro lower upper lowerGlobal upperGlobal below
  have ascending : (source.globals.filter (· < upper)).Pairwise (· < ·) :=
    (List.pairwise_lt_range.filter _).filter _
  have lowerMember : lower ∈ source.globals.filter (· < upper) := by
    rw [List.mem_filter, decide_eq_true_eq]
    exact ⟨lowerGlobal, below⟩
  have found :
      source.previousGlobal? upper =
        some ((source.globals.filter (· < upper)).getLast (List.ne_nil_of_mem lowerMember)) := by
    rw [previousGlobal?, if_pos (mem_globals_iff.mp upperGlobal).2, List.getLast?_eq_some_getLast]
  obtain ⟨isGlobal, previousBelow⟩ := mem_globals_of_previousGlobal? found
  refine ⟨_, isGlobal, ?_, previousBelow, ?_⟩
  · exact le_getLast_of_ascending ascending lowerMember _
  · rw [placedBefore, found]
    rfl

/-- Module-level code comes in its order, unless the later segment comes up while the earlier one
is under way. -/
theorem precedes_of_mem_globals
    {names : List String} {policy : SymbolPolicy} {lower upper : Nat}
    (placed : upper ∈ (source.select names policy).segments)
    (lowerGlobal : lower ∈ source.globals) (upperGlobal : upper ∈ source.globals)
    (below : lower < upper) (idle : lower ∉ source.underWay names policy upper) :
    Precedes lower upper (source.select names policy).segments := by
  have start :
      Placement.Visits.Descends (· ∈ source.globals) .empty
        (source.visitOrder (source.requested names) (source.chosen names policy)) := by
    intro _ _ _ _ _ entered
    simp [Placement.Entered, Placement.empty] at entered
  exact (Placement.Visits.precedes_of_inRow (source.inRow_globals _)
    (source.visits_select names policy) start).2 lower upper _
    (mem_selectionLog_underWay placed) lowerGlobal upperGlobal below idle

/-! ## When a selection runs -/

/-- A name that a segment reads has been bound when the segment runs: something that the segment
needs binds it and is not under way when the segment comes up, or module-level code from further
down does, which comes up while the segment is under way. -/
def Settled
    (source : ParsedSource) (names : List String) (policy : SymbolPolicy) (index : Nat)
    (name : String) : Prop :=
  (∃ need ∈ source.placedBefore (source.chosen names policy) index,
    name ∈ source.bindsOf need ∧ need ∉ source.underWay names policy index) ∨
  ∃ later ∈ source.globals,
    later ∈ (source.select names policy).segments ∧ index < later ∧
      name ∈ source.bindsOf later ∧ index ∈ source.underWay names policy later

theorem bindsOneOf_of_mem
    {names : List String} {index : Nat} {name : String}
    (binds : name ∈ source.bindsOf index) (member : name ∈ names) :
    source.bindsOneOf names index = true := by
  rw [bindsOneOf, List.any_eq_true]
  exact ⟨name, binds, decide_eq_true member⟩

/-- A segment needs whatever else binds a name that it reads while it runs, module-level code after
it apart. -/
theorem mem_placedBefore_of_binds
    {text : Text} (parsed : parse text = .ok source)
    {names : List String} {policy : SymbolPolicy} {index other : Nat} {name : String}
    (selected : index ∈ source.selectable (source.chosen names policy))
    (otherSelected : other ∈ source.selectable (source.chosen names policy))
    (distinct : other ≠ index)
    (read : name ∈ source.eagerReferencesOf index) (binds : name ∈ source.bindsOf other) :
    other ∈ source.placedBefore (source.chosen names policy) index ∨
      index ∈ source.globals ∧ other ∈ source.globals ∧ index < other := by
  obtain ⟨known, _⟩ := mem_selectable_iff.mp selected
  obtain ⟨otherKnown, otherKind⟩ := mem_selectable_iff.mp otherSelected
  by_cases definition : source.isDefinition index = true
  · left
    apply List.mem_append_right
    rw [prerequisites, if_pos definition, List.mem_filter]
    refine ⟨otherKnown, ?_⟩
    rw [Bool.and_eq_true, Bool.and_eq_true, decide_eq_true_eq]
    exact ⟨⟨distinct, (List.mem_filter.mp otherSelected).2⟩, bindsOneOf_of_mem binds read⟩
  · have referenced := eagerReferencesOf_subset parsed index read
    have isGlobal : source.isGlobal index = true := by
      rcases (mem_selectable_iff.mp selected).2 with chosen | isGlobal
      · exact absurd (isDefinition_of_mem_chosen chosen).1 definition
      · exact isGlobal
    rcases otherKind with chosen | otherGlobal
    · have called : other ∈ source.calledBy (source.chosen names policy) index := by
        rw [calledBy, List.mem_filter, Bool.and_eq_true, decide_eq_true_eq]
        exact ⟨otherKnown, chosen, bindsOneOf_of_mem binds referenced⟩
      have reached : other ∈ source.reachedFrom (source.chosen names policy) index :=
        mem_reachWithin_of_mem called
      left
      apply List.mem_append_right
      rw [prerequisites, if_neg definition, List.mem_filter]
      refine ⟨otherKnown, ?_⟩
      rw [Bool.or_eq_true, decide_eq_true_eq]
      exact Or.inl reached
    · rcases Nat.lt_or_gt_of_ne distinct with before | after
      · left
        apply List.mem_append_right
        rw [prerequisites, if_neg definition, List.mem_filter]
        refine ⟨otherKnown, ?_⟩
        rw [Bool.or_eq_true, Bool.and_eq_true, Bool.and_eq_true, decide_eq_true_eq]
        exact Or.inr ⟨⟨decide_eq_true before, otherGlobal⟩,
          bindsOneOf_of_mem binds (List.mem_append_left _ referenced)⟩
      · exact Or.inr ⟨mem_globals_iff.mpr ⟨known, isGlobal⟩,
          mem_globals_iff.mpr ⟨otherKnown, otherGlobal⟩, after⟩

/-- A name that a segment reads is bound before the segment if and only if it is settled. -/
theorem mem_flatMap_bindsOf_iff_settled
    {text : Text} (parsed : parse text = .ok source)
    {names : List String} {policy : SymbolPolicy} {before after : List Nat} {index : Nat}
    {name : String}
    (split : (source.select names policy).segments = before ++ index :: after)
    (read : name ∈ source.eagerReferencesOf index) :
    name ∈ before.flatMap source.bindsOf ↔ source.Settled names policy index name := by
  have nodup := source.nodup_select names policy
  have placed : index ∈ (source.select names policy).segments := by
    rw [split]
    simp
  have mem_before {other : Nat}
      (order : Precedes other index (source.select names policy).segments) :
      other ∈ before := by
    rw [split] at order nodup
    exact order.mem_before nodup
  constructor
  · intro bound
    obtain ⟨other, member, binds⟩ := List.mem_flatMap.mp bound
    have otherPlaced : other ∈ (source.select names policy).segments := by
      rw [split]
      exact List.mem_append_left _ member
    have order : Precedes other index (source.select names policy).segments := by
      rw [split]
      exact .of_mem_append member List.mem_cons_self
    have distinct : other ≠ index := by
      rintro rfl
      exact order.asymm nodup order
    rcases mem_placedBefore_of_binds parsed (mem_selectable_of_mem_select placed)
      (mem_selectable_of_mem_select otherPlaced) distinct read binds with
      needed | ⟨indexGlobal, otherGlobal, below⟩
    · refine Or.inl ⟨other, needed, binds, ?_⟩
      intro under
      exact order.asymm nodup (precedes_of_mem_underWay placed under)
    · refine Or.inr ⟨other, otherGlobal, otherPlaced, below, binds, ?_⟩
      by_contra idle
      exact order.asymm nodup
        (precedes_of_mem_globals otherPlaced indexGlobal otherGlobal below idle)
  · rintro (⟨need, needed, binds, idle⟩ | ⟨later, _, laterPlaced, _, binds, under⟩)
    · exact List.mem_flatMap.mpr
        ⟨need, mem_before (precedes_of_mem_placedBefore placed needed idle), binds⟩
    · exact List.mem_flatMap.mpr
        ⟨later, mem_before (precedes_of_mem_underWay laterPlaced under), binds⟩

/-- A selection runs from top to bottom if and only if each name that a statement of it reads, and
that the selection binds, is bound by an earlier statement of the same segment or is settled.
Whatever is under way when a segment comes up needs that segment in turn. -/
theorem select_runsTopToBottom_iff
    {text : Text} (parsed : parse text = .ok source)
    (names : List String) (policy : SymbolPolicy) :
    (RunsTopToBottom (source.statementsIn (source.select names policy).segments) ↔
      ∀ index ∈ (source.select names policy).segments,
        ∀ earlier statement later,
          source.statementsOf index = earlier ++ statement :: later →
            ∀ name ∈ statement.eagerReferences,
              name ∈ (source.select names policy).segments.flatMap source.bindsOf →
                (∃ other ∈ earlier, name ∈ other.binds) ∨
                  source.Settled names policy index name) ∧
    ∀ index ∈ (source.select names policy).segments,
      ∀ waiting ∈ source.underWay names policy index,
        Relation.TransGen
          (fun item need => need ∈ source.placedBefore (source.chosen names policy) item)
          waiting index := by
  have eagerOf {index : Nat} {earlier later : List Statement} {statement : Statement}
      {name : String} (split : source.statementsOf index = earlier ++ statement :: later)
      (read : name ∈ statement.eagerReferences) :
      name ∈ source.eagerReferencesOf index := by
    refine List.mem_flatMap.mpr ⟨statement, ?_, read⟩
    rw [split]
    simp
  refine ⟨?_, fun index placed waiting under => needs_of_mem_underWay placed under⟩
  rw [runsTopToBottom_statementsIn_iff]
  constructor
  · intro runs index placed earlier statement later split name read bound
    obtain ⟨before, after, order⟩ := List.append_of_mem placed
    rcases runs before index after order earlier statement later split name read bound with
      outside | inside
    · exact Or.inr
        ((mem_flatMap_bindsOf_iff_settled parsed order (eagerOf split read)).mp outside)
    · exact Or.inl inside
  · intro settled before index after order earlier statement later split name read bound
    have placed : index ∈ (source.select names policy).segments := by
      rw [order]
      simp
    rcases settled index placed earlier statement later split name read bound with
      inside | outside
    · exact Or.inr inside
    · exact Or.inl
        ((mem_flatMap_bindsOf_iff_settled parsed order (eagerOf split read)).mpr outside)

/-- A function whose default value is bound by a lambda that calls the function. -/
def lambdaDefault : Text :=
  "g = lambda: f()\n\ndef f(x=g):\n    return x\n".toList

/-- The source of this text. -/
def lambdaDefaultSource : ParsedSource :=
  (parse lambdaDefault).toOption.getD default

theorem select_lambdaDefault_settled :
    ∃ source,
      parse lambdaDefault = .ok source ∧
      RunsTopToBottom (source.statementsIn (source.select ["f"] .withDependencies).segments) ∧
      source.Settled ["f"] .withDependencies 1 "g" := by
  have facts : ∃ source statement,
      parse lambdaDefault = .ok source ∧
      RunsTopToBottom (source.statementsIn (source.select ["f"] .withDependencies).segments) ∧
      1 ∈ (source.select ["f"] .withDependencies).segments ∧
      "g" ∈ (source.select ["f"] .withDependencies).segments.flatMap source.bindsOf ∧
      source.statementsOf 1 = [] ++ statement :: [] ∧
      "g" ∈ statement.eagerReferences :=
    ⟨lambdaDefaultSource, (lambdaDefaultSource.statementsOf 1).headD default, by decide +kernel⟩
  obtain ⟨source, statement, parsed, runs, placed, bound, alone, reads⟩ := facts
  refine ⟨source, parsed, runs, ?_⟩
  rcases (select_runsTopToBottom_iff parsed ["f"] .withDependencies).1.mp runs 1 placed
    [] statement [] alone "g" reads bound with ⟨_, member, _⟩ | settled
  · simp at member
  · exact settled

/-- As it is written, the text runs from top to bottom, but not the selection for the lambda. -/
theorem select_lambdaDefault_not_runs :
    parse lambdaDefault = .ok lambdaDefaultSource ∧
      RunsTopToBottom lambdaDefaultSource.statements ∧
      (lambdaDefaultSource.select ["g"] .withDependencies).segments = [1, 0] ∧
      ¬ RunsTopToBottom (lambdaDefaultSource.statementsIn
        (lambdaDefaultSource.select ["g"] .withDependencies).segments) := by
  decide +kernel

end ParsedSource

end Inliner
