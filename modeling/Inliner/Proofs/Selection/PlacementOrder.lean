import Inliner.Proofs.Selection.DependencyClosure

/-!
# The order of a selection

A segment waits for its prerequisites, and module-level code also for the module-level code right
before it.  A selection follows this relation as far as it can be followed: whatever a segment
waits for comes before it, unless that waits for the segment in turn.

Module-level code is meant to keep the order of the module.  It does unless a definition that the
earlier code waits for reads, in its header, what later code binds; the later code is then drawn
ahead while the earlier code is under way.
-/

namespace Inliner

namespace ParsedSource

variable {source : ParsedSource} {names : List String} {policy : SymbolPolicy}

/-! ## What a segment waits for -/

/-- Some module-level code stands before other module-level code, with none between them. -/
def IsPreviousCode (source : ParsedSource) (previous index : Nat) : Prop :=
  source.IsModuleCode previous ∧ source.IsModuleCode index ∧ previous < index ∧
    ∀ between, previous < between → between < index → ¬ source.IsModuleCode between

/-- A segment of a selection waits for its prerequisites, and module-level code for the
module-level code right before it. -/
def WaitsFor
    (source : ParsedSource) (names : List String) (policy : SymbolPolicy) (index need : Nat) :
    Prop :=
  index ∈ (source.select names policy).segments ∧
    (need ∈ source.prerequisites (source.chosen names policy) index ∨
      source.IsPreviousCode need index)

/-- The header of a definition reads a name that a segment binds. -/
def HeaderReads (source : ParsedSource) (definition index : Nat) : Prop :=
  ∃ name ∈ source.eagerReferencesOf definition, name ∈ source.bindsOf index

/-- Some module-level code draws a segment ahead: it waits for a definition whose header reads what
code further down binds, and this code is or waits for the segment. -/
def DrawsAhead
    (source : ParsedSource) (names : List String) (policy : SymbolPolicy) (lower index : Nat) :
    Prop :=
  ∃ definition ∈ source.chosen names policy, ∃ later,
    source.IsModuleCode later ∧ lower < later ∧
    Relation.ReflTransGen (source.WaitsFor names policy) lower definition ∧
    source.HeaderReads definition later ∧
    Relation.ReflTransGen (source.WaitsFor names policy) later index

theorem pairwise_globals (source : ParsedSource) : source.globals.Pairwise (· < ·) :=
  List.pairwise_lt_range.filter _

theorem isPreviousCode_of_previousGlobal?
    {index previous : Nat} (known : index ∈ source.indices)
    (found : source.previousGlobal? index = some previous) :
    source.IsPreviousCode previous index := by
  obtain ⟨previousGlobal, below⟩ := mem_globals_of_previousGlobal? found
  unfold previousGlobal? at found
  split at found
  next isGlobal =>
    refine ⟨mem_globals_iff_isModuleCode.mp previousGlobal,
      mem_globals_iff_isModuleCode.mp (mem_globals_iff.mpr ⟨known, isGlobal⟩), below, ?_⟩
    intro between above beneath code
    have member : between ∈ source.globals.filter (· < index) := by
      rw [List.mem_filter, decide_eq_true_eq]
      exact ⟨mem_globals_iff_isModuleCode.mpr code, beneath⟩
    have atMost := le_getLast_of_ascending (source.pairwise_globals.filter _) member
      (List.ne_nil_of_mem member)
    rw [List.getLast?_eq_some_getLast (List.ne_nil_of_mem member), Option.some.injEq] at found
    omega
  next => cases found

theorem mem_placedBefore_of_isPreviousCode
    {chosen : List Nat} {index previous : Nat} (before : source.IsPreviousCode previous index) :
    previous ∈ source.placedBefore chosen index := by
  obtain ⟨previousCode, indexCode, below, noneBetween⟩ := before
  obtain ⟨nearest, isGlobal, atLeast, nearestBelow, first⟩ :=
    source.inRow_globals chosen previous index (mem_globals_iff_isModuleCode.mpr previousCode)
      (mem_globals_iff_isModuleCode.mpr indexCode) below
  have same : previous = nearest := by
    by_contra different
    exact noneBetween nearest (Nat.lt_of_le_of_ne atLeast different) nearestBelow
      (mem_globals_iff_isModuleCode.mp isGlobal)
  rw [same]
  exact List.mem_of_mem_head? first

theorem waitsFor_iff {index need : Nat} :
    source.WaitsFor names policy index need ↔
      index ∈ (source.select names policy).segments ∧
        need ∈ source.placedBefore (source.chosen names policy) index := by
  refine and_congr_right fun placed => ?_
  have known := (mem_selectable_iff.mp (mem_selectable_of_mem_select placed)).1
  constructor
  · rintro (needed | before)
    · exact List.mem_append_right _ needed
    · exact mem_placedBefore_of_isPreviousCode before
  · intro member
    rcases List.mem_append.mp member with previous | needed
    · exact Or.inr (isPreviousCode_of_previousGlobal? known (Option.mem_toList.mp previous))
    · exact Or.inl needed

theorem not_isDefinition_of_isModuleCode
    {index : Nat} (code : source.IsModuleCode index) :
    ¬ source.isDefinition index = true := by
  have isGlobal := (mem_globals_iff.mp (mem_globals_iff_isModuleCode.mpr code)).2
  rw [ParsedSource.isGlobal, Bool.and_eq_true, Bool.not_eq_true'] at isGlobal
  simp [isGlobal.1]

theorem not_mem_chosen_of_isModuleCode
    {index : Nat} (code : source.IsModuleCode index) :
    index ∉ source.chosen names policy := fun chosen =>
  not_isDefinition_of_isModuleCode code (isDefinition_of_mem_chosen chosen).1

/-- What waiting can look like: module-level code waits for definitions and for earlier
module-level code, a definition for whatever its header reads. -/
theorem WaitsFor.cases {index need : Nat} (waits : source.WaitsFor names policy index need) :
    source.IsModuleCode index ∧
        (need ∈ source.chosen names policy ∨ source.IsModuleCode need ∧ need < index) ∨
      index ∈ source.chosen names policy ∧
        (need ∈ source.chosen names policy ∨ source.IsModuleCode need) ∧
        source.HeaderReads index need := by
  obtain ⟨placed, needed | ⟨previousCode, indexCode, below, _⟩⟩ := waits
  · have code_of_isGlobal {target : Nat} (known : target ∈ source.indices)
        (isGlobal : source.isGlobal target = true) : source.IsModuleCode target :=
      mem_globals_iff_isModuleCode.mp (mem_globals_iff.mpr ⟨known, isGlobal⟩)
    rcases mem_select_iff.mp placed with code | chosen
    · left
      rw [prerequisites, if_neg (not_isDefinition_of_isModuleCode code)] at needed
      simp only [List.mem_filter, Bool.or_eq_true, Bool.and_eq_true, decide_eq_true_eq] at needed
      obtain ⟨known, reached | ⟨⟨below, isGlobal⟩, _⟩⟩ := needed
      · exact ⟨code, Or.inl (mem_chosen_of_mem_reachedFrom reached)⟩
      · exact ⟨code, Or.inr ⟨code_of_isGlobal known isGlobal, below⟩⟩
    · right
      rw [prerequisites, if_pos (isDefinition_of_mem_chosen chosen).1] at needed
      simp only [List.mem_filter, Bool.and_eq_true, isSelected, Bool.or_eq_true,
        decide_eq_true_eq, bindsOneOf, List.any_eq_true] at needed
      obtain ⟨known, ⟨_, kind⟩, name, binds, reads⟩ := needed
      exact ⟨chosen, kind.imp id (code_of_isGlobal known), name, reads, binds⟩
  · exact Or.inl ⟨indexCode, Or.inr ⟨previousCode, below⟩⟩

/-! ## Waiting through other segments -/

theorem mem_select_of_waitsFor
    {index need : Nat} (waits : source.WaitsFor names policy index need) :
    need ∈ (source.select names policy).segments :=
  mem_select_iff_mem_selectable.mpr
    (mem_selectable_of_mem_placedBefore (waitsFor_iff.mp waits).2)

/-- What is needed through other segments is waited for through them. -/
theorem waits_of_needs
    {waiting index : Nat} (placed : waiting ∈ (source.select names policy).segments)
    (needs : Relation.TransGen
      (fun item need => need ∈ source.placedBefore (source.chosen names policy) item)
      waiting index) :
    Relation.TransGen (source.WaitsFor names policy) waiting index := by
  have further :
      Relation.TransGen (source.WaitsFor names policy) waiting index ∧
        index ∈ (source.select names policy).segments := by
    induction needs with
    | single needed =>
        have waits := waitsFor_iff.mpr ⟨placed, needed⟩
        exact ⟨.single waits, mem_select_of_waitsFor waits⟩
    | tail _ needed inductionHypothesis =>
        obtain ⟨leads, middlePlaced⟩ := inductionHypothesis
        have waits := waitsFor_iff.mpr ⟨middlePlaced, needed⟩
        exact ⟨.tail leads waits, mem_select_of_waitsFor waits⟩
  exact further.1

/-- What is under way when a segment comes up waits for the segment. -/
theorem waits_of_mem_underWay
    {index waiting : Nat} (placed : index ∈ (source.select names policy).segments)
    (under : waiting ∈ source.underWay names policy index) :
    Relation.TransGen (source.WaitsFor names policy) waiting index :=
  waits_of_needs (precedes_of_mem_underWay placed under).right_mem
    (needs_of_mem_underWay placed under)

/-- Module-level code waits for all module-level code before it. -/
theorem waits_of_isModuleCode
    {lower upper : Nat} (lowerCode : source.IsModuleCode lower)
    (upperCode : source.IsModuleCode upper) (below : lower < upper) :
    Relation.TransGen (source.WaitsFor names policy) upper lower := by
  induction upper using Nat.strongRecOn with
  | ind upper inductionHypothesis =>
      obtain ⟨previous, isGlobal, atLeast, previousBelow, first⟩ :=
        source.inRow_globals (source.chosen names policy) lower upper
          (mem_globals_iff_isModuleCode.mpr lowerCode)
          (mem_globals_iff_isModuleCode.mpr upperCode) below
      have waits : source.WaitsFor names policy upper previous :=
        waitsFor_iff.mpr ⟨mem_select_iff.mpr (Or.inl upperCode), List.mem_of_mem_head? first⟩
      rcases Nat.eq_or_lt_of_le atLeast with rfl | strictly
      · exact .single waits
      · exact .head waits (inductionHypothesis previous previousBelow
          (mem_globals_iff_isModuleCode.mp isGlobal) strictly)

/-- What module-level code waits for is earlier code, a definition, or drawn ahead. -/
theorem cases_of_waits
    {lower index : Nat} (lowerCode : source.IsModuleCode lower)
    (waits : Relation.ReflTransGen (source.WaitsFor names policy) lower index) :
    (source.IsModuleCode index ∧ index ≤ lower) ∨ index ∈ source.chosen names policy ∨
      source.DrawsAhead names policy lower index := by
  -- The way leads through earlier code and definitions up to the first code behind the start.
  induction waits with
  | refl => exact Or.inl ⟨lowerCode, Nat.le_refl lower⟩
  | @tail middle next leads step inductionHypothesis =>
      rcases inductionHypothesis with early | chosen | drawn
      · rcases step.cases with ⟨_, kind⟩ | ⟨chosen, _⟩
        · rcases kind with chosen | ⟨code, below⟩
          · exact Or.inr (Or.inl chosen)
          · exact Or.inl ⟨code, by omega⟩
        · exact absurd chosen (not_mem_chosen_of_isModuleCode early.1)
      · rcases step.cases with ⟨code, _⟩ | ⟨_, kind, reads⟩
        · exact absurd chosen (not_mem_chosen_of_isModuleCode code)
        · rcases kind with nextChosen | code
          · exact Or.inr (Or.inl nextChosen)
          · by_cases behind : lower < next
            · exact Or.inr (Or.inr ⟨middle, chosen, next, code, behind, leads, reads, .refl⟩)
            · exact Or.inl ⟨code, by omega⟩
      · obtain ⟨definition, chosen, later, code, behind, before, reads, after⟩ := drawn
        exact Or.inr (Or.inr
          ⟨definition, chosen, later, code, behind, before, reads, .tail after step⟩)

theorem drawsAhead_of_waits
    {lower upper : Nat} (lowerCode : source.IsModuleCode lower)
    (upperCode : source.IsModuleCode upper) (below : lower < upper)
    (waits : Relation.TransGen (source.WaitsFor names policy) lower upper) :
    source.DrawsAhead names policy lower upper := by
  rcases cases_of_waits lowerCode waits.to_reflTransGen with ⟨_, early⟩ | chosen | drawn
  · omega
  · exact absurd chosen (not_mem_chosen_of_isModuleCode upperCode)
  · exact drawn

/-! ## Segments behind what they wait for -/

theorem precedes_of_waitsFor
    {index need : Nat} (waits : source.WaitsFor names policy index need)
    (oneWay : ¬ Relation.TransGen (source.WaitsFor names policy) need index) :
    Precedes need index (source.select names policy).segments := by
  obtain ⟨placed, needed⟩ := waitsFor_iff.mp waits
  exact precedes_of_mem_placedBefore placed needed fun under =>
    oneWay (waits_of_mem_underWay placed under)

theorem precedes_of_isModuleCode
    {lower upper : Nat} (lowerCode : source.IsModuleCode lower)
    (upperCode : source.IsModuleCode upper) (below : lower < upper)
    (idle : lower ∉ source.underWay names policy upper) :
    Precedes lower upper (source.select names policy).segments :=
  precedes_of_mem_globals (mem_select_iff.mpr (Or.inl upperCode))
    (mem_globals_iff_isModuleCode.mpr lowerCode) (mem_globals_iff_isModuleCode.mpr upperCode)
    below idle

/-- A selection has a segment behind whatever it waits for, unless that waits for the segment in
turn.  Without such cycles every segment comes behind its prerequisites, and module-level code
behind all earlier module-level code. -/
theorem select_follows_waiting
    (source : ParsedSource) (names : List String) (policy : SymbolPolicy) :
    (∀ index need, source.WaitsFor names policy index need →
      ¬ Relation.TransGen (source.WaitsFor names policy) need index →
        Precedes need index (source.select names policy).segments) ∧
    ((∀ index, ¬ Relation.TransGen (source.WaitsFor names policy) index index) →
      (∀ index ∈ (source.select names policy).segments,
        ∀ need ∈ source.prerequisites (source.chosen names policy) index,
          Precedes need index (source.select names policy).segments) ∧
      ∀ lower upper, source.IsModuleCode lower → source.IsModuleCode upper → lower < upper →
        Precedes lower upper (source.select names policy).segments) := by
  refine ⟨fun _ _ => precedes_of_waitsFor, fun acyclic => ⟨?_, ?_⟩⟩
  · intro index placed need needed
    have waits : source.WaitsFor names policy index need := ⟨placed, Or.inl needed⟩
    exact precedes_of_waitsFor waits fun back => acyclic index (.head waits back)
  · intro lower upper lowerCode upperCode below
    refine precedes_of_isModuleCode lowerCode upperCode below fun under => ?_
    have ahead := waits_of_mem_underWay (mem_select_iff.mpr (Or.inl upperCode)) under
    exact acyclic lower (ahead.trans (waits_of_isModuleCode lowerCode upperCode below))

/-- There are no cycles if a selection has all segments behind what they wait for. -/
theorem acyclic_of_ordered
    {order : List Nat} (segments : (source.select names policy).segments = order)
    (ordered : ∀ index ∈ order, ∀ need ∈ source.placedBefore (source.chosen names policy) index,
      order.idxOf need < order.idxOf index) (index : Nat) :
    ¬ Relation.TransGen (source.WaitsFor names policy) index index := by
  have descends {first last : Nat}
      (waits : Relation.TransGen (source.WaitsFor names policy) first last) :
      order.idxOf last < order.idxOf first := by
    induction waits with
    | single step =>
        obtain ⟨placed, needed⟩ := waitsFor_iff.mp step
        exact ordered _ (segments ▸ placed) _ needed
    | tail _ step inductionHypothesis =>
        obtain ⟨placed, needed⟩ := waitsFor_iff.mp step
        exact (ordered _ (segments ▸ placed) _ needed).trans inductionHypothesis
  exact fun cycle => Nat.lt_irrefl _ (descends cycle)

/-- Module-level code that calls a definition, and a definition that has nothing to do with it. -/
def bystander : Text :=
  "def f():\n    return 1\n\nx = f()\n\ndef g():\n    return 2\n".toList

/-- The source of this text. -/
def bystanderSource : ParsedSource :=
  (parse bystander).toOption.getD default

theorem select_bystander :
    parse bystander = .ok bystanderSource ∧
      (bystanderSource.select ["g"] .withDependencies).segments = [2, 0, 1] ∧
      0 ∈ bystanderSource.prerequisites (bystanderSource.chosen ["g"] .withDependencies) 1 ∧
      bystanderSource.IsModuleCode 1 ∧
      ∀ index ∈ [2, 0, 1], ∀ need ∈ bystanderSource.placedBefore
        (bystanderSource.chosen ["g"] .withDependencies) index,
          [2, 0, 1].idxOf need < [2, 0, 1].idxOf index := by
  decide +kernel

theorem select_bystander_follows_waiting :
    parse bystander = .ok bystanderSource ∧
      (∀ index, ¬ Relation.TransGen (bystanderSource.WaitsFor ["g"] .withDependencies)
        index index) ∧
      bystanderSource.WaitsFor ["g"] .withDependencies 1 0 ∧
      Precedes 0 1 (bystanderSource.select ["g"] .withDependencies).segments ∧
      ∀ need ∈ bystanderSource.prerequisites
        (bystanderSource.chosen ["g"] .withDependencies) 1,
          Precedes need 1 (bystanderSource.select ["g"] .withDependencies).segments := by
  obtain ⟨parsed, segments, needed, _, ordered⟩ := select_bystander
  have acyclic := acyclic_of_ordered segments ordered
  have placed : 1 ∈ (bystanderSource.select ["g"] .withDependencies).segments := by
    rw [segments]
    decide
  have waits : bystanderSource.WaitsFor ["g"] .withDependencies 1 0 := ⟨placed, Or.inl needed⟩
  obtain ⟨oneWay, whole⟩ := bystanderSource.select_follows_waiting ["g"] .withDependencies
  have order := oneWay 1 0 waits fun back => acyclic 1 (.head waits back)
  exact ⟨parsed, acyclic, waits, order, (whole acyclic).1 1 placed⟩

/-- A definition that is asked for may come before earlier module-level code, also where there are
no cycles. -/
theorem select_bystander_before_code :
    parse bystander = .ok bystanderSource ∧
      (∀ index, ¬ Relation.TransGen (bystanderSource.WaitsFor ["g"] .withDependencies)
        index index) ∧
      (bystanderSource.select ["g"] .withDependencies).segments = [2, 0, 1] ∧
      ¬ ∀ index ∈ (bystanderSource.select ["g"] .withDependencies).segments,
        ∀ earlier, bystanderSource.IsModuleCode earlier → earlier < index →
          Precedes earlier index (bystanderSource.select ["g"] .withDependencies).segments := by
  obtain ⟨parsed, segments, _, code, ordered⟩ := select_bystander
  refine ⟨parsed, acyclic_of_ordered segments ordered, segments, fun behind => ?_⟩
  rw [segments] at behind
  have order := behind 2 (by decide) 1 code (by decide)
  exact order.asymm (by decide) ⟨[2], [0, 1], rfl, by decide, by decide⟩

/-! ## The order of module-level code -/

/-- Module-level code keeps its order exactly if the earlier code is not under way when the later
code comes up.  Otherwise the two come the other way round, and the earlier code draws the later
code ahead. -/
theorem select_moduleCode_order_iff
    (source : ParsedSource) (names : List String) (policy : SymbolPolicy)
    {lower upper : Nat} (lowerCode : source.IsModuleCode lower)
    (upperCode : source.IsModuleCode upper) (below : lower < upper) :
    (Precedes lower upper (source.select names policy).segments ↔
      lower ∉ source.underWay names policy upper) ∧
    (¬ Precedes lower upper (source.select names policy).segments →
      Precedes upper lower (source.select names policy).segments ∧
        source.DrawsAhead names policy lower upper) := by
  have placed : upper ∈ (source.select names policy).segments :=
    mem_select_iff.mpr (Or.inl upperCode)
  refine ⟨⟨?_, precedes_of_isModuleCode lowerCode upperCode below⟩, fun reversed => ?_⟩
  · intro order under
    exact order.asymm (source.nodup_select names policy) (precedes_of_mem_underWay placed under)
  · have under : lower ∈ source.underWay names policy upper := by
      by_contra idle
      exact reversed (precedes_of_isModuleCode lowerCode upperCode below idle)
    exact ⟨precedes_of_mem_underWay placed under,
      drawsAhead_of_waits lowerCode upperCode below (waits_of_mem_underWay placed under)⟩

/-- A lambda that calls a function whose default value is another name for the lambda. -/
def renamedDefault : Text :=
  "a = lambda: f()\nb = a\n\ndef f(x=b):\n    return x\n".toList

/-- The source of this text. -/
def renamedDefaultSource : ParsedSource :=
  (parse renamedDefault).toOption.getD default

theorem select_renamedDefault :
    parse renamedDefault = .ok renamedDefaultSource ∧
      renamedDefaultSource.IsModuleCode 0 ∧ renamedDefaultSource.IsModuleCode 1 ∧
      (renamedDefaultSource.select ["f"] .withDependencies).segments = [0, 1, 2] ∧
      (renamedDefaultSource.select ["a"] .withDependencies).segments = [1, 2, 0] := by
  decide +kernel

theorem select_renamedDefault_order :
    parse renamedDefault = .ok renamedDefaultSource ∧
      renamedDefaultSource.IsModuleCode 0 ∧ renamedDefaultSource.IsModuleCode 1 ∧
      Precedes 0 1 (renamedDefaultSource.select ["f"] .withDependencies).segments ∧
      0 ∉ renamedDefaultSource.underWay ["f"] .withDependencies 1 := by
  obtain ⟨parsed, lowerCode, upperCode, segments, _⟩ := select_renamedDefault
  have order : Precedes 0 1 (renamedDefaultSource.select ["f"] .withDependencies).segments := by
    rw [segments]
    exact ⟨[0], [1, 2], rfl, by decide, by decide⟩
  have exactly := renamedDefaultSource.select_moduleCode_order_iff ["f"] .withDependencies
    lowerCode upperCode Nat.zero_lt_one
  exact ⟨parsed, lowerCode, upperCode, order, exactly.1.mp order⟩

/-- The selection for the lambda reverses the module-level code.  As it is written, the text runs
from top to bottom, but the selection does not. -/
theorem select_renamedDefault_reversed :
    parse renamedDefault = .ok renamedDefaultSource ∧
      (renamedDefaultSource.select ["a"] .withDependencies).segments = [1, 2, 0] ∧
      (¬ ∀ lower upper, renamedDefaultSource.IsModuleCode lower →
        renamedDefaultSource.IsModuleCode upper → lower < upper →
          Precedes lower upper
            (renamedDefaultSource.select ["a"] .withDependencies).segments) ∧
      RunsTopToBottom renamedDefaultSource.statements ∧
      ¬ RunsTopToBottom (renamedDefaultSource.statementsIn [1, 2, 0]) := by
  obtain ⟨parsed, lowerCode, upperCode, _, segments⟩ := select_renamedDefault
  refine ⟨parsed, segments, ?_, by decide +kernel⟩
  intro ordered
  rw [segments] at ordered
  have order := ordered 0 1 lowerCode upperCode Nat.zero_lt_one
  exact order.asymm (by decide) ⟨[1], [2, 0], rfl, by decide, by decide⟩

end ParsedSource

end Inliner
