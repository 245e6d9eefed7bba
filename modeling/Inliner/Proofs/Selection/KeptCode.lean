import Inliner.Proofs.Selection.DependencyClosure
import Inliner.Proofs.Source.Segments

/-!
# Module-level code that a selection keeps

A selection is meant to keep every import and every other statement that is no definition.  It
takes whole segments, and a segment that mixes such statements with others is neither module-level
code nor a definition that can be asked for.  So such a statement is kept exactly if all statements
of its segment are of these kinds.
-/

namespace Inliner

namespace ParsedSource

variable {source : ParsedSource} {names : List String} {policy : SymbolPolicy}

/-! ## Statements that share a segment -/

/-- A segment of a selection that holds an import or other code that is no definition holds nothing
else. -/
theorem isModuleCode_of_mem_select
    {index : Nat} {statement : Statement}
    (placed : index ∈ (source.select names policy).segments)
    (member : statement ∈ source.statementsOf index)
    (code : statement.kind = .other ∨ statement.kind = .importing) :
    source.IsModuleCode index := by
  rcases mem_select_iff.mp placed with isCode | chosen
  · exact isCode
  · obtain ⟨name, defines⟩ := Option.isSome_iff_exists.mp (isDefinition_of_mem_chosen chosen).1
    unfold definitionOf? at defines
    split at defines
    next only alone =>
      rw [alone, List.mem_singleton] at member
      subst member
      rcases code with other | importing
      · simp [Statement.definitionName?, other] at defines
      · simp [Statement.definitionName?, importing] at defines
    next => cases defines

/-- A selection keeps an import or other code that is no definition exactly if all statements of
its segment are of these kinds. -/
theorem select_keeps_statement_iff
    {text : Text} (parsed : parse text = .ok source)
    (names : List String) (policy : SymbolPolicy)
    {number : Nat} {statement : Statement}
    (found : source.statements[number]? = some statement)
    (code : statement.kind = .other ∨ statement.kind = .importing) :
    (∃ index ∈ (source.select names policy).segments, source.HoldsStatement index number) ↔
      ∀ index other companion,
        source.HoldsStatement index number → source.HoldsStatement index other →
        source.statements[other]? = some companion →
          companion.kind = .other ∨ companion.kind = .importing := by
  obtain ⟨nodes, rfl, lays⟩ := exists_nodes_of_parse parsed
  have known : number < nodes.length := by
    obtain ⟨bound, _⟩ := List.getElem?_eq_some_iff.mp found
    simpa [ofNodes] using bound
  constructor
  · rintro ⟨kept, placed, keptHolds⟩ index other companion holds otherHolds otherFound
    rw [holdsStatement_unique lays known holds keptHolds] at otherHolds
    have isCode := isModuleCode_of_mem_select placed
      (mem_statementsOf_iff.mpr ⟨number, keptHolds, found⟩) code
    exact isCode.2 companion (mem_statementsOf_iff.mpr ⟨other, otherHolds, otherFound⟩)
  · intro alike
    obtain ⟨index, holds⟩ := exists_holdsStatement lays known
    have bound : index < (ofNodes text nodes).segments.length := by
      obtain ⟨_, inSegments, _⟩ := holds
      exact (List.getElem?_eq_some_iff.mp inSegments).1
    refine ⟨index, mem_select_iff.mpr (Or.inl ⟨bound, ?_⟩), holds⟩
    intro companion member
    obtain ⟨other, otherHolds, otherFound⟩ := mem_statementsOf_iff.mp member
    exact alike index other companion holds otherHolds otherFound

/-- An assignment on the line of a future import, and one on the line of an import. -/
def sharedLines : Text :=
  ("from __future__ import annotations; x = 1\n\ny = x; import os\n\n" ++
    "def f():\n    return y\n").toList

/-- The source of this text. -/
def sharedLinesSource : ParsedSource :=
  (parse sharedLines).toOption.getD default

theorem select_sharedLines_keeps :
    parse sharedLines = .ok sharedLinesSource ∧
      (∃ index ∈ (sharedLinesSource.select ["f"] .withDependencies).segments,
        sharedLinesSource.HoldsStatement index 2) ∧
      ∃ statement companion,
        sharedLinesSource.statements[2]? = some statement ∧ statement.kind = .other ∧
        sharedLinesSource.statements[3]? = some companion ∧
        sharedLinesSource.HoldsStatement 1 2 ∧ sharedLinesSource.HoldsStatement 1 3 ∧
        (companion.kind = .other ∨ companion.kind = .importing) := by
  have facts :
      parse sharedLines = .ok sharedLinesSource ∧
        (∃ index ∈ (sharedLinesSource.select ["f"] .withDependencies).segments,
          sharedLinesSource.HoldsStatement index 2) ∧
        ((sharedLinesSource.statements[2]?).map (·.kind)) = some .other ∧
        (sharedLinesSource.statements[3]?).isSome = true ∧
        sharedLinesSource.HoldsStatement 1 2 ∧ sharedLinesSource.HoldsStatement 1 3 := by
    decide +kernel
  obtain ⟨parsed, kept, isOther, present, holds, companionHolds⟩ := facts
  obtain ⟨statement, found, kind⟩ := Option.map_eq_some_iff.mp isOther
  obtain ⟨companion, companionFound⟩ := Option.isSome_iff_exists.mp present
  have alike := (select_keeps_statement_iff parsed ["f"] .withDependencies found
    (Or.inl kind)).mp kept 1 3 companion holds companionHolds companionFound
  exact ⟨parsed, kept, statement, companion, found, kind, companionFound, holds, companionHolds,
    alike⟩

/-- The assignment on the line of the future import is lost, and what reads its name is not. -/
theorem select_sharedLines_loses :
    parse sharedLines = .ok sharedLinesSource ∧
      ((sharedLinesSource.statements[1]?).map fun statement =>
        (statement.kind, statement.binds)) = some (.other, ["x"]) ∧
      (sharedLinesSource.select ["f"] .withDependencies).segments = [1, 2] ∧
      "x" ∈ sharedLinesSource.eagerReferencesOf 1 ∧
      ¬ ∃ index ∈ (sharedLinesSource.select ["f"] .withDependencies).segments,
        sharedLinesSource.HoldsStatement index 1 := by
  decide +kernel

end ParsedSource

end Inliner
