import Inliner.Proofs.Merge.Edits
import Inliner.Proofs.Merge.Leniency
import Inliner.Proofs.Merge.MainChunk

/-!
# Telling where imports lead, and following them

The imports of a file can be told without a merge, and a merge goes over the same imports on its
own.  For a file that may not have faults the two agree.  If the imports cannot be told, the merge
fails for the same reason.  If one of them is told to lead nowhere, the merge fails with the first
one.  If the merge succeeds, it depends on what the imports are told to lead to, and keeps those
that are told to lead out of the library.
-/

namespace Inliner

open Syntax

/-! ## What is told of an import -/

namespace ImportReport

/-- The dependency that an import amounts to by what is told of it. -/
def dependency? (report : ImportReport) : Option Dependency :=
  match report.resolution with
  | .library target =>
      some
        { target := target
          request :=
            match report.names with
            | .wildcard | .module _ => .whole
            | .named names => .names names
          module := report.module
          line := report.line }
  | .foreign | .missing _ => none

/-- The error that an import of a file amounts to by what is told of it. -/
def missing? (location : Location) (report : ImportReport) : Option MergeError :=
  match report.resolution with
  | .missing reason => some (.missingLibrary report.module location report.line reason)
  | .library _ | .foreign => none

theorem missing?_eq_none
    {location : Location}
    {report : ImportReport}
    (leads : ∀ reason, report.resolution ≠ .missing reason) :
    report.missing? location = none := by
  unfold missing?
  split
  next reason isMissing => exact absurd isMissing (leads reason)
  next => rfl
  next => rfl

end ImportReport

namespace Setting

/-- What is told of an import of a file. -/
def reportOf (setting : Setting) (location : Location) (declaration : ImportDeclaration) :
    ImportReport where
  line := declaration.line
  module := String.ofList declaration.module.display
  names := declaration.names
  resolution := setting.resolver.resolve setting.tree location.path declaration.module

variable {setting : Setting} {location : Location} {lenient : Bool}

/-- An import that is settled amounts to the dependency that is told of it. -/
theorem eq_dependency?_of_dependency
    {declaration : ImportDeclaration}
    {found : Option Dependency}
    {remarks : List Remark}
    (settled : setting.dependency location lenient declaration = .ok (found, remarks)) :
    found = (setting.reportOf location declaration).dependency? := by
  unfold dependency at settled
  unfold ImportReport.dependency? reportOf
  cases resolution : setting.resolver.resolve setting.tree location.path declaration.module with
  | library target =>
      simp only [resolution, Except.ok.injEq, Prod.mk.injEq] at settled
      exact settled.1.symm
  | foreign =>
      simp only [resolution, Except.ok.injEq, Prod.mk.injEq] at settled
      exact settled.1.symm
  | missing reason =>
      simp only [resolution] at settled
      split at settled
      · exact (Prod.mk.inj (Except.ok.inj settled)).1.symm
      · cases settled

/-- Imports that are settled amount to the dependencies that are told of them, in order. -/
theorem filterMap_dependency?_of_dependencies
    {declarations : List ImportDeclaration}
    {imports : List (ImportDeclaration × Option Dependency)}
    {remarks : List Remark}
    (settled : setting.dependencies location lenient declarations = (remarks, .ok imports)) :
    imports.filterMap (·.2) =
      (declarations.map (setting.reportOf location)).filterMap ImportReport.dependency? := by
  induction declarations generalizing imports remarks with
  | nil =>
      simp only [dependencies, Prod.mk.injEq, Except.ok.injEq] at settled
      rw [← settled.2]
      rfl
  | cons declaration declarations inductionHypothesis =>
      unfold dependencies at settled
      split at settled
      next => simp at settled
      next found foundRemarks first =>
        split at settled
        next => simp at settled
        next more rest restSettled =>
          simp only [Prod.mk.injEq, Except.ok.injEq] at settled
          rw [← settled.2, List.map_cons, List.filterMap_cons, List.filterMap_cons,
            ← eq_dependency?_of_dependency first, inductionHypothesis restSettled]

/-! ## What becomes of the imports of a loaded file -/

section Loaded

variable {id : Nat} {isMain : Bool} {remarks : List Remark} {module : Module}
variable {source : ParsedSource}

/-- A loaded file depends on what its imports are told to lead to. -/
theorem dependencies_eq_of_load
    (loaded : setting.load id location isMain = (remarks, .ok module))
    (parsed : module.parsed = some source) :
    module.dependencies =
      (source.imports.map (setting.reportOf location)).filterMap ImportReport.dependency? := by
  cases loads_of_load loaded with
  | analysed readable analysed settled =>
      obtain rfl := Option.some.inj parsed
      exact filterMap_dependency?_of_dependencies settled
  | verbatim => cases parsed

end Loaded

end Setting

/-- The statement is kept with this clause in it: either all of it, or with the clauses that do not
lead to module files. -/
def Edit.KeepsClause (edit : Edit) (clause : Text) : Prop :=
  edit = .keep ∨ ∃ clauses, clause ∈ clauses ∧ edit = .replace (keptImport clauses)

/-- An import of a loaded file that does not lead to a module file is kept. -/
theorem keepsClause_of_load
    {setting : Setting}
    {id : Nat}
    {location : Location}
    {isMain : Bool}
    {remarks : List Remark}
    {module : Module}
    {source : ParsedSource}
    {declaration : ImportDeclaration}
    (loaded : setting.load id location isMain = (remarks, .ok module))
    (parsed : module.parsed = some source)
    (member : declaration ∈ source.imports)
    (stays : setting.inlines location declaration = false) :
    (module.edit declaration.statement).KeepsClause declaration.text := by
  have edits := editsStatements_of_load loaded parsed
  obtain ⟨statement, found, isImport⟩ :
      ∃ statement, source.statements[declaration.statement]? = some statement ∧
        statement.kind = .importing := by
    obtain ⟨nodes, rfl, _⟩ := exists_nodes_of_parse (Setting.parse_of_load loaded parsed)
    obtain ⟨index, node, same, nodeFound, isImport⟩ := exists_node_of_mem_declarationsFrom member
    refine ⟨node.statement module.text, ?_, isImport⟩
    rw [same, Nat.zero_add, ParsedSource.ofNodes, List.getElem?_map, nodeFound]
    rfl
  have own : declaration ∈ source.declarationsOf declaration.statement :=
    List.mem_filter.mpr ⟨member, beq_self_eq_true _⟩
  by_cases someLead :
      ∃ other ∈ source.declarationsOf declaration.statement, setting.inlines location other = true
  · right
    obtain ⟨replaced, _⟩ :=
      edits.replaced _ statement found isImport someLead ⟨declaration, own, stays⟩
    refine ⟨_, ?_, replaced⟩
    apply List.mem_map_of_mem
    rw [List.mem_filter, stays]
    exact ⟨own, rfl⟩
  · left
    apply edits.kept _ statement found isImport
    intro other otherMember
    rw [← Bool.not_eq_true]
    exact fun leads => someLead ⟨other, otherMember, leads⟩

/-! ## Telling imports and merging -/

/-- Imports are told unless the file has a fault.  Then the file has a fault only if one of them is
told to lead nowhere. -/
theorem inspectImports_eq
    {config : MergeConfig}
    {tree : FileTree}
    {file : Path}
    (valid : config.validate tree = .ok ())
    (strict : Setting.isLenient ⟨config, tree⟩ (tree.normalize file) = false) :
    (∃ error,
      inspectImports config tree file = .error error ∧
        Setting.fault? ⟨config, tree⟩ (tree.normalize file) = some error) ∨
    ∃ source,
      tree.parsedAt? (tree.normalize file) = some source ∧
        inspectImports config tree file =
          .ok (source.imports.map (Setting.reportOf ⟨config, tree⟩ (tree.normalize file))) ∧
        Setting.fault? ⟨config, tree⟩ (tree.normalize file) =
          (source.imports.map (Setting.reportOf ⟨config, tree⟩ (tree.normalize file))).findSome?
            (ImportReport.missing? (tree.normalize file)) := by
  unfold inspectImports Setting.fault? FileTree.parsedAt?
  rw [valid, strict]
  dsimp only
  by_cases python : Language.ofPath (tree.normalize file).path = .python
  · rw [if_neg (not_not.mpr python), if_neg (not_not.mpr python)]
    cases readable : tree.readAt (tree.normalize file) with
    | error error =>
        left
        exact ⟨_, rfl, rfl⟩
    | ok text =>
        dsimp only
        cases analysed : ParsedSource.parse text with
        | error error =>
            left
            exact ⟨_, rfl, rfl⟩
        | ok source =>
            right
            refine ⟨source, rfl, rfl, ?_⟩
            rw [List.findSome?_map]
            rfl
  · left
    rw [if_pos python, if_pos python]
    exact ⟨_, rfl, rfl⟩

theorem Setting.mergeAt_of_fault?
    {setting : Setting}
    {main : Location}
    {error : MergeError}
    (fault : setting.fault? main = some error) :
    ∃ remarks, setting.mergeAt main = (remarks, .error error) := by
  rcases setting.load_eq 0 main true with
    ⟨remarks, other, failed, otherFault⟩ | ⟨_, _, _, faultless, _⟩
  · obtain rfl := Option.some.inj (otherFault.symm.trans fault)
    exact ⟨remarks, by rw [mergeAt, failed]⟩
  · rw [faultless] at fault
    cases fault

/-- Telling the imports of a file that may not have faults agrees with merging it.  If they cannot
be told, the merge fails for the same reason.  If some lead nowhere, the merge fails with the first
of them.  If the merge succeeds, none leads nowhere, the main file depends on what the imports lead
to, in their order, and keeps those that lead out of the library. -/
theorem merge_follows_inspected_imports
    {config : MergeConfig}
    {tree : FileTree}
    {file : Path}
    (valid : config.validate tree = .ok ())
    (strict : Setting.isLenient ⟨config, tree⟩ (tree.normalize file) = false) :
    (∀ error,
      inspectImports config tree file = .error error →
        ∃ remarks, merge config tree file = (remarks, .error error)) ∧
    (∀ earlier report later reason,
      inspectImports config tree file = .ok (earlier ++ report :: later) →
      (∀ other ∈ earlier, ∀ otherReason, other.resolution ≠ .missing otherReason) →
      report.resolution = .missing reason →
        ∃ remarks,
          merge config tree file =
            (remarks,
              .error (.missingLibrary report.module (tree.normalize file) report.line reason))) ∧
    ∀ remarks outcome,
      merge config tree file = (remarks, .ok outcome) →
        ∃ source reports walk module,
          tree.parsedAt? (tree.normalize file) = some source ∧
          inspectImports config tree file = .ok reports ∧
          reports = source.imports.map (Setting.reportOf ⟨config, tree⟩ (tree.normalize file)) ∧
          (∀ report ∈ reports, ∀ reason, report.resolution ≠ .missing reason) ∧
          Setting.Completes ⟨config, tree⟩ (tree.normalize file) walk ∧
          outcome =
            Setting.outcome ⟨config, tree⟩ (tree.normalize file) source.text walk ∧
          walk.registry.module? 0 = some module ∧
          module.dependencies = reports.filterMap ImportReport.dependency? ∧
          ∀ declaration ∈ source.imports,
            (Setting.reportOf ⟨config, tree⟩ (tree.normalize file) declaration).resolution =
                .foreign →
              (module.edit declaration.statement).KeepsClause declaration.text := by
  have merged : merge config tree file = Setting.mergeAt ⟨config, tree⟩ (tree.normalize file) := by
    rw [merge, valid]
  rw [merged]
  rcases inspectImports_eq valid strict with ⟨error, told, fault⟩ | ⟨source, parsed, told, fault⟩
  · obtain ⟨remarks, failed⟩ := Setting.mergeAt_of_fault? fault
    rw [told, failed]
    refine ⟨?_, ?_, ?_⟩
    · intro other same
      rw [← Except.error.inj same]
      exact ⟨remarks, rfl⟩
    · intro _ _ _ _ impossible
      cases impossible
    · intro _ _ impossible
      cases (Prod.mk.inj impossible).2
  · rw [told]
    refine ⟨?_, ?_, ?_⟩
    · intro _ impossible
      cases impossible
    · intro earlier report later reason split leads isMissing
      apply Setting.mergeAt_of_fault?
      have noneEarlier :
          earlier.findSome? (ImportReport.missing? (tree.normalize file)) = none := by
        rw [List.findSome?_eq_none_iff]
        exact fun other member => ImportReport.missing?_eq_none (leads other member)
      rw [fault, Except.ok.inj split, List.findSome?_append, noneEarlier, Option.none_or,
        List.findSome?_cons, ImportReport.missing?, isMissing]
    · intro remarks outcome succeeded
      have noneMissing : ∀ report ∈ source.imports.map
          (Setting.reportOf ⟨config, tree⟩ (tree.normalize file)),
            report.missing? (tree.normalize file) = none := by
        rw [← List.findSome?_eq_none_iff, ← fault]
        cases faulty : Setting.fault? ⟨config, tree⟩ (tree.normalize file) with
        | none => rfl
        | some error =>
            obtain ⟨_, failed⟩ := Setting.mergeAt_of_fault? faulty
            rw [succeeded] at failed
            cases (Prod.mk.inj failed).2
      obtain ⟨walk, text, completes, readable, isOutcome⟩ :=
        Setting.completes_of_mergeAt succeeded (by rw [parsed]; rfl)
      obtain ⟨_, module, _, _, loaded, _, modules, _⟩ := completes.exists_modules
      have isParsed : module.parsed = some source :=
        (Setting.parsed_of_load loaded).trans parsed
      have sameText : source.text = text :=
        ParsedSource.text_of_parse (FileTree.parse_of_parsedAt? readable parsed)
      refine ⟨source, _, walk, module, parsed, rfl, rfl, ?_, completes, ?_, ?_,
        Setting.dependencies_eq_of_load loaded isParsed, ?_⟩
      · intro report member reason isMissing
        have none := noneMissing report member
        rw [ImportReport.missing?, isMissing] at none
        cases none
      · rw [isOutcome, sameText]
      · rw [Registry.module?, modules]
        rfl
      · intro declaration member isForeign
        apply keepsClause_of_load loaded isParsed member
        simp only [Setting.reportOf] at isForeign
        rw [Setting.inlines, isForeign]

theorem merge_faultyTree_follows_inspection :
    (∃ remarks,
      merge {} faultyTree (.ofString "main.py") =
        (remarks,
          .error (.missingLibrary "lib.gone" ⟨["w".toList, "main.py".toList]⟩ 2
            (.noFile (.ofString "/w/contest/lib/gone.py"))))) ∧
    ∃ walk module,
      mixedSetting.Completes ⟨["w".toList, "main.py".toList]⟩ walk ∧
        walk.registry.module? 0 = some module ∧
        module.dependencies.map (fun dependency => (dependency.module, dependency.line)) =
          [("lib.a", 2), ("lib.a", 3)] := by
  constructor
  · have valid : MergeConfig.validate {} faultyTree = .ok () := by decide +kernel
    have strict :
        Setting.isLenient ⟨{}, faultyTree⟩ (faultyTree.normalize (.ofString "main.py")) =
          false := by
      decide +kernel
    have told :
        inspectImports {} faultyTree (.ofString "main.py") =
          .ok
            ([⟨1, "lib.a", .module none,
                .library ⟨["w".toList, "contest".toList, "lib".toList, "a.py".toList]⟩⟩] ++
              ⟨2, "lib.gone", .module none,
                .missing (.noFile (.ofString "/w/contest/lib/gone.py"))⟩ ::
              [⟨3, "lib.b", .module none,
                .library ⟨["w".toList, "contest".toList, "lib".toList, "b.py".toList]⟩⟩]) := by
      decide +kernel
    have isMain :
        faultyTree.normalize (.ofString "main.py") = ⟨["w".toList, "main.py".toList]⟩ := by
      decide +kernel
    obtain ⟨_, firstMissing, _⟩ := merge_follows_inspected_imports valid strict
    rw [isMain] at firstMissing
    exact firstMissing _ _ _ _ told (by simp) rfl
  · have valid : mixedSetting.config.validate mixedSetting.tree = .ok () := by decide +kernel
    have strict :
        mixedSetting.isLenient (mixedSetting.tree.normalize (.ofString "main.py")) = false := by
      decide +kernel
    have evaluated :
        (mergeWithin 12 mixedSetting.config mixedSetting.tree (.ofString "main.py")).isSome := by
      decide +kernel
    obtain ⟨outcome, found⟩ := Option.isSome_iff_exists.mp evaluated
    obtain ⟨remarks, merged⟩ := merge_eq_of_mergeWithin 12 found
    obtain ⟨_, _, follows⟩ := merge_follows_inspected_imports valid strict
    obtain ⟨_, reports, walk, module, _, told, _, _, completes, _, isModule, dependencies, _⟩ :=
      follows remarks outcome merged
    have leads :
        (inspectImports mixedSetting.config mixedSetting.tree (.ofString "main.py")).map
            (fun reports =>
              (reports.filterMap ImportReport.dependency?).map fun dependency =>
                (dependency.module, dependency.line)) =
          .ok [("lib.a", 2), ("lib.a", 3)] := by
      decide +kernel
    have isMain :
        mixedSetting.tree.normalize (.ofString "main.py") = ⟨["w".toList, "main.py".toList]⟩ := by
      decide +kernel
    rw [told] at leads
    rw [isMain] at completes
    refine ⟨walk, module, completes, isModule, ?_⟩
    rw [dependencies]
    exact Except.ok.inj leads

end Inliner
