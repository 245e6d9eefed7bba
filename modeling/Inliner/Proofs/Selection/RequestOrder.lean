import Inliner.Proofs.Selection.PlacementOrder

/-!
# Definitions in the order of their request

A selection starts with the module-level code that needs no chosen definition, up to the first
code that does.  After that the definitions asked for come in the order in which they are asked
for; only what a definition waits for is drawn ahead together with it.
-/

namespace Inliner

namespace ParsedSource

variable {source : ParsedSource} {names : List String} {policy : SymbolPolicy}

/-! ## Stages of a selection -/

/-- The first segments to be visited are placed, with what they need, at the start of the
selection. -/
theorem exists_stage
    {first second : List Nat}
    (split : source.visitOrder (source.requested names) (source.chosen names policy) =
      first ++ second) :
    ∃ log middle,
      Placement.Visits (source.placedBefore (source.chosen names policy)) .empty first log middle ∧
        middle.emitted <+: (source.select names policy).segments := by
  have visits := source.visits_select names policy
  rw [split] at visits
  obtain ⟨middle, log, _, before, after⟩ := visits.exists_of_append
  refine ⟨log, middle, before, ?_⟩
  rw [select, split]
  exact after.isPrefix

/-! ## The code at the start of a selection -/

/-- The first module-level code of a module, as long as it has no chosen definition among its
prerequisites. -/
def IsLead (source : ParsedSource) (chosen lead : List Nat) : Prop :=
  lead <+: source.globals ∧
    ∀ index ∈ lead, ∀ need ∈ source.prerequisites chosen index, need ∉ chosen

theorem isLead_leadingGlobals (source : ParsedSource) (chosen : List Nat) :
    source.IsLead chosen (source.leadingGlobals chosen) := by
  refine ⟨List.takeWhile_prefix _, ?_⟩
  intro index leads need needed
  unfold leadingGlobals at leads
  have free := List.mem_takeWhile_imp leads
  exact of_decide_eq_true (List.all_eq_true.mp free need needed)

theorem IsLead.prefix_leadingGlobals
    {chosen lead : List Nat} (isLead : source.IsLead chosen lead) :
    lead <+: source.leadingGlobals chosen := by
  obtain ⟨⟨rest, split⟩, free⟩ := isLead
  rw [leadingGlobals, ← split, List.takeWhile_append_of_pos]
  · exact List.prefix_append _ _
  · intro index leads
    exact List.all_eq_true.mpr fun need needed => decide_eq_true (free index leads need needed)

theorem isModuleCode_of_mem_leadingGlobals
    {chosen : List Nat} {index : Nat} (leads : index ∈ source.leadingGlobals chosen) :
    source.IsModuleCode index :=
  mem_globals_iff_isModuleCode.mp ((List.takeWhile_prefix _).subset leads)

/-- With any leading code, all module-level code before it is leading. -/
theorem mem_leadingGlobals_of_lt
    {chosen : List Nat} {lower upper : Nat} (leads : upper ∈ source.leadingGlobals chosen)
    (lowerCode : source.IsModuleCode lower) (below : lower < upper) :
    lower ∈ source.leadingGlobals chosen := by
  obtain ⟨rest, split⟩ := (source.isLead_leadingGlobals chosen).1
  have ascending := source.pairwise_globals
  have member := mem_globals_iff_isModuleCode.mpr lowerCode
  rw [← split] at ascending member
  rcases List.mem_append.mp member with early | late
  · exact early
  · have order := (List.pairwise_append.mp ascending).2.2 upper leads lower late
    exact absurd below (Nat.lt_asymm order)

/-- Leading code needs nothing but leading code before it. -/
theorem mem_leadingGlobals_of_mem_placedBefore
    {index need : Nat} (leads : index ∈ source.leadingGlobals (source.chosen names policy))
    (needed : need ∈ source.placedBefore (source.chosen names policy) index) :
    need < index ∧ need ∈ source.leadingGlobals (source.chosen names policy) := by
  have code := isModuleCode_of_mem_leadingGlobals leads
  have free : need ∉ source.chosen names policy := by
    rcases List.mem_append.mp needed with previous | prerequisite
    · exact not_mem_chosen_of_isModuleCode (mem_globals_iff_isModuleCode.mp
        (mem_globals_of_previousGlobal? (Option.mem_toList.mp previous)).1)
    · exact (source.isLead_leadingGlobals _).2 index leads need prerequisite
  have waits : source.WaitsFor names policy index need :=
    waitsFor_iff.mpr ⟨mem_select_iff.mpr (Or.inl code), needed⟩
  rcases waits.cases with ⟨_, chosen | ⟨needCode, below⟩⟩ | ⟨chosen, _⟩
  · exact absurd chosen free
  · exact ⟨below, mem_leadingGlobals_of_lt leads needCode below⟩
  · exact absurd chosen (not_mem_chosen_of_isModuleCode code)

/-- What leading code needs through other segments is leading code. -/
theorem mem_leadingGlobals_of_needs
    {root index : Nat} (leads : root ∈ source.leadingGlobals (source.chosen names policy))
    (needs : Relation.ReflTransGen
      (fun item need => need ∈ source.placedBefore (source.chosen names policy) item)
      root index) :
    index ∈ source.leadingGlobals (source.chosen names policy) := by
  induction needs with
  | refl => exact leads
  | tail _ needed inductionHypothesis =>
      exact (mem_leadingGlobals_of_mem_placedBefore inductionHypothesis needed).2

theorem leadingGlobals_prefix_select
    (source : ParsedSource) (names : List String) (policy : SymbolPolicy) :
    source.leadingGlobals (source.chosen names policy) <+:
      (source.select names policy).segments := by
  have order :
      source.visitOrder (source.requested names) (source.chosen names policy) =
        source.leadingGlobals (source.chosen names policy) ++
          (source.requested names ++ source.globals ++
            source.furtherDefinitions (source.requested names) (source.chosen names policy)) := by
    simp only [visitOrder, List.append_assoc]
  obtain ⟨_, middle, leading, start⟩ := exists_stage order
  have placed : middle.emitted = source.leadingGlobals (source.chosen names policy) :=
    leading.emitted_of_ascending rfl
      (source.pairwise_globals.sublist (List.takeWhile_sublist _))
      fun _ leads _ needed => mem_leadingGlobals_of_mem_placedBefore leads needed
  rwa [placed] at start

/-! ## Definitions that are asked for -/

/-- Some names ask for a segment: it is the last definition of one of them. -/
def AskedFor (source : ParsedSource) (names : List String) (index : Nat) : Prop :=
  ∃ name ∈ names, source.LastDefines name index

theorem requested_mono
    (source : ParsedSource) {asked : List String} (earlier : asked <+: names) :
    source.requested asked <+: source.requested names := by
  obtain ⟨more, rfl⟩ := earlier
  rw [requested, requested, List.filterMap_append, List.eraseDups_append]
  exact List.prefix_append _ _

/-- The first requests fill a start of the selection: it holds what they ask for, and no other
definition than those that something they ask for waits for. -/
theorem exists_start_of_requests
    (source : ParsedSource) (names : List String) (policy : SymbolPolicy)
    {asked : List String} (upTo : asked <+: names) :
    ∃ start, start <+: (source.select names policy).segments ∧
      (∀ index, source.AskedFor asked index → index ∈ start) ∧
      ∀ index ∈ start, index ∈ source.chosen names policy →
        source.AskedFor asked index ∨
          ∃ earlier, source.AskedFor asked earlier ∧
            Relation.TransGen (source.WaitsFor names policy) earlier index := by
  obtain ⟨more, split⟩ := source.requested_mono upTo
  have order :
      source.visitOrder (source.requested names) (source.chosen names policy) =
        (source.leadingGlobals (source.chosen names policy) ++ source.requested asked) ++
          (more ++ source.globals ++
            source.furtherDefinitions (source.requested names) (source.chosen names policy)) := by
    simp only [visitOrder, ← split, List.append_assoc]
  obtain ⟨_, middle, visits, isStart⟩ := exists_stage order
  refine ⟨middle.emitted, isStart, ?_, ?_⟩
  · intro index indexAsked
    have visited := mem_requested_iff.mpr indexAsked
    rcases visits.entered_of_mem (List.mem_append_right _ visited) with emitted | visiting
    · exact emitted
    · rw [visits.visiting_eq] at visiting
      simp [Placement.empty] at visiting
  · intro index placed chosen
    rcases visits.mem_emitted_iff.mp placed with before | ⟨stack, entered⟩
    · simp [Placement.empty] at before
    · obtain ⟨root, visited, needs⟩ := visits.exists_root_of_mem_log entered
      rcases List.mem_append.mp visited with leads | wanted
      · -- Leading code draws no definition along.
        have code := isModuleCode_of_mem_leadingGlobals (mem_leadingGlobals_of_needs leads needs)
        exact absurd chosen (not_mem_chosen_of_isModuleCode code)
      · have rootAsked := mem_requested_iff.mp wanted
        rcases Relation.reflTransGen_iff_eq_or_transGen.mp needs with same | leads
        · exact Or.inl (same ▸ rootAsked)
        · have rootChosen : root ∈ source.chosen names policy :=
            requested_subset_chosen ((source.requested_mono upTo).subset wanted)
          exact Or.inr
            ⟨root, rootAsked, waits_of_needs (mem_select_iff.mpr (Or.inr rootChosen)) leads⟩

/-- A selection starts with the longest lead.  A definition comes before one that is asked for
later, unless something asked for up to then waits for the latter. -/
theorem select_keeps_request_order
    (source : ParsedSource) (names : List String) (policy : SymbolPolicy) :
    (∃ lead, source.IsLead (source.chosen names policy) lead ∧
      (∀ other, source.IsLead (source.chosen names policy) other → other <+: lead) ∧
      lead <+: (source.select names policy).segments) ∧
    ∀ asked, asked <+: names → ∀ first second,
      source.AskedFor asked first → source.AskedFor names second →
      ¬ source.AskedFor asked second →
        Precedes first second (source.select names policy).segments ∨
          ∃ earlier, source.AskedFor asked earlier ∧
            Relation.TransGen (source.WaitsFor names policy) earlier second := by
  refine ⟨⟨_, source.isLead_leadingGlobals _, fun _ => IsLead.prefix_leadingGlobals,
    source.leadingGlobals_prefix_select names policy⟩, ?_⟩
  intro asked upTo first second firstAsked secondAsked notYet
  have chosen : second ∈ source.chosen names policy :=
    requested_subset_chosen (mem_requested_iff.mpr secondAsked)
  obtain ⟨start, isStart, holds, only⟩ := source.exists_start_of_requests names policy upTo
  by_cases early : second ∈ start
  · exact Or.inr ((only second early chosen).resolve_left notYet)
  · exact Or.inl (.of_mem_start isStart (holds first firstAsked)
      (mem_select_iff.mpr (Or.inr chosen)) early)

/-- A constant and two functions, one of which reads the constant. -/
def scaling : Text :=
  "m = 7\n\ndef f(x):\n    return x * m\n\ndef g(x):\n    return x\n".toList

/-- The source of this text. -/
def scalingSource : ParsedSource :=
  (parse scaling).toOption.getD default

/-- The later function is asked for first. -/
theorem select_scaling_in_request_order :
    parse scaling = .ok scalingSource ∧
      scalingSource.IsLead (scalingSource.chosen ["g", "f"] .withDependencies) [0] ∧
      [0] <+: (scalingSource.select ["g", "f"] .withDependencies).segments ∧
      scalingSource.AskedFor ["g"] 2 ∧ scalingSource.AskedFor ["g", "f"] 1 ∧
      Precedes 2 1 (scalingSource.select ["g", "f"] .withDependencies).segments := by
  have facts :
      parse scaling = .ok scalingSource ∧ scalingSource.globals = [0] ∧
        scalingSource.prerequisites (scalingSource.chosen ["g", "f"] .withDependencies) 0 = [] ∧
        scalingSource.placedBefore (scalingSource.chosen ["g", "f"] .withDependencies) 2 = [] ∧
        scalingSource.definitionIndex? "g" = some 2 ∧
        scalingSource.definitionIndex? "f" = some 1 := by
    decide +kernel
  obtain ⟨parsed, globals, free, alone, second, first⟩ := facts
  rw [definitionIndex?_eq_some_iff] at second first
  have isLead :
      scalingSource.IsLead (scalingSource.chosen ["g", "f"] .withDependencies) [0] := by
    refine ⟨globals ▸ List.prefix_rfl, ?_⟩
    intro index leads need needed
    rw [List.mem_singleton.mp leads, free] at needed
    cases needed
  have onlySecond {index : Nat} (asked : scalingSource.AskedFor ["g"] index) : index = 2 := by
    obtain ⟨name, member, last⟩ := asked
    rw [List.mem_singleton.mp member] at last
    exact last.unique second
  have secondAsked : scalingSource.AskedFor ["g"] 2 := ⟨"g", by decide, second⟩
  have firstAsked : scalingSource.AskedFor ["g", "f"] 1 := ⟨"f", by decide, first⟩
  obtain ⟨⟨lead, _, longest, start⟩, inOrder⟩ :=
    scalingSource.select_keeps_request_order ["g", "f"] .withDependencies
  refine ⟨parsed, isLead, (longest [0] isLead).trans start, secondAsked, firstAsked, ?_⟩
  rcases inOrder ["g"] ⟨["f"], rfl⟩ 2 1 secondAsked firstAsked
      (fun asked => absurd (onlySecond asked) (by decide)) with
    order | ⟨earlier, asked, waits⟩
  · exact order
  · rw [onlySecond asked] at waits
    obtain ⟨need, step, _⟩ := Relation.TransGen.head'_iff.mp waits
    have needed := (waitsFor_iff.mp step).2
    rw [alone] at needed
    cases needed

end ParsedSource

end Inliner
