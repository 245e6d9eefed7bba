import Inliner.Proofs.Source.Rendering
import Inliner.Proofs.Walk.Invariant

/-!
# What happens to the statements of a file

Edits come from two passes: one goes over the imports of a file, grouped by their statements, and
one over its other statements.  No statement is met by both, and the edit of each is settled by
where its imports lead or by its kind.
-/

namespace Inliner

open Syntax

/-! ## Imports and their statements -/

namespace ParsedSource

/-- The imports of the statement of a number. -/
def declarationsOf (source : ParsedSource) (index : Nat) : List ImportDeclaration :=
  source.imports.filter (·.statement == index)

end ParsedSource

section Declarations

variable {text : Text} {start index : Nat} {nodes : List Node} {declaration : ImportDeclaration}

/-- An import belongs to a statement that is an import. -/
theorem exists_node_of_mem_declarationsFrom
    (member : declaration ∈ declarationsFrom text start nodes) :
    ∃ index node,
      declaration.statement = start + index ∧
        nodes[index]? = some node ∧ node.form.kind = .importing := by
  induction nodes generalizing start with
  | nil => simp [declarationsFrom] at member
  | cons node nodes inductionHypothesis =>
      rcases List.mem_append.mp member with here | later
      · obtain ⟨clause, clauseMember, rfl⟩ := List.mem_map.mp here
        refine ⟨0, node, rfl, rfl, ?_⟩
        cases form : node.form <;> simp_all [Form.clauses, Form.kind]
      · obtain ⟨index, found, sameStatement, foundAt, isImport⟩ := inductionHypothesis later
        exact ⟨index + 1, found, by omega, foundAt, isImport⟩

/-- The imports of a statement are those of its clauses, in order. -/
theorem filter_declarationsFrom
    (text : Text)
    (start : Nat)
    {node : Node}
    (found : nodes[index]? = some node) :
    (declarationsFrom text start nodes).filter (·.statement == start + index) =
      node.form.clauses.map fun clause =>
        ⟨clause, start + index, text.rowAt node.span.start + 1⟩ := by
  induction nodes generalizing start index with
  | nil => simp at found
  | cons head tail inductionHypothesis =>
      rw [declarationsFrom, List.filter_append]
      cases index with
      | zero =>
          obtain rfl : head = node := by simpa using found
          have noneLater :
              (declarationsFrom text (start + 1) tail).filter (·.statement == start + 0) = [] := by
            rw [List.filter_eq_nil_iff]
            intro declaration member same
            obtain ⟨index, _, sameStatement, _⟩ := exists_node_of_mem_declarationsFrom member
            rw [beq_iff_eq] at same
            omega
          rw [noneLater, List.append_nil]
          refine List.filter_eq_self.mpr ?_
          intro declaration member
          obtain ⟨clause, _, rfl⟩ := List.mem_map.mp member
          simp
      | succ index =>
          have noneHere :
              (head.form.clauses.map fun clause =>
                (⟨clause, start, text.rowAt head.span.start + 1⟩ : ImportDeclaration)).filter
                  (·.statement == start + (index + 1)) = [] := by
            rw [List.filter_eq_nil_iff]
            intro declaration member same
            obtain ⟨clause, _, rfl⟩ := List.mem_map.mp member
            rw [beq_iff_eq] at same
            dsimp only at same
            omega
          have later := inductionHypothesis (start + 1) (by simpa using found)
          rw [noneHere, List.nil_append]
          rwa [Nat.add_right_comm start 1 index, Nat.add_assoc start index 1] at later

end Declarations

namespace ParsedSource

variable {text : Text} {nodes : List Node} {index : Nat} {node : Node}

theorem declarationsOf_ofNodes
    (found : nodes[index]? = some node) :
    (ofNodes text nodes).declarationsOf index =
      node.form.clauses.map fun clause =>
        ⟨clause, index, text.rowAt node.span.start + 1⟩ := by
  have filtered := filter_declarationsFrom text 0 found
  rwa [Nat.zero_add] at filtered

end ParsedSource

/-! ## Where imports lead -/

namespace Setting

/-- Whether an import of a file leads to a module file. -/
def inlines (setting : Setting) (location : Location) (declaration : ImportDeclaration) : Bool :=
  match setting.resolver.resolve setting.tree location.path declaration.module with
  | .library _ => true
  | .foreign | .missing _ => false

variable {setting : Setting} {location : Location} {lenient : Bool}

theorem inlines_of_dependency
    {declaration : ImportDeclaration}
    {found : Option Dependency}
    {remarks : List Remark}
    (settled : setting.dependency location lenient declaration = .ok (found, remarks)) :
    found.isSome = setting.inlines location declaration := by
  unfold dependency at settled
  unfold inlines
  cases resolution : setting.resolver.resolve setting.tree location.path declaration.module with
  | library target =>
      simp only [resolution, Except.ok.injEq, Prod.mk.injEq] at settled
      rw [← settled.1]
      rfl
  | foreign =>
      simp only [resolution, Except.ok.injEq, Prod.mk.injEq] at settled
      rw [← settled.1]
      rfl
  | missing reason =>
      simp only [resolution] at settled
      split at settled
      · simp only [Except.ok.injEq, Prod.mk.injEq] at settled
        rw [← settled.1]
        rfl
      · cases settled

/-- The dependencies of a file say of each import, in order, whether it leads to a module file. -/
theorem inlines_of_dependencies
    {declarations : List ImportDeclaration}
    {imports : List (ImportDeclaration × Option Dependency)}
    {remarks : List Remark}
    (settled : setting.dependencies location lenient declarations = (remarks, .ok imports)) :
    imports.map (·.1) = declarations ∧
      ∀ pair ∈ imports, pair.2.isSome = setting.inlines location pair.1 := by
  induction declarations generalizing imports remarks with
  | nil =>
      simp only [dependencies, Prod.mk.injEq, Except.ok.injEq] at settled
      simp [← settled.2]
  | cons declaration declarations inductionHypothesis =>
      unfold dependencies at settled
      split at settled
      next => simp at settled
      next found foundRemarks first =>
        split at settled
        next => simp at settled
        next more rest restSettled =>
          simp only [Prod.mk.injEq, Except.ok.injEq] at settled
          obtain ⟨_, rfl⟩ := settled
          obtain ⟨same, leads⟩ := inductionHypothesis restSettled
          refine ⟨by simp [same], ?_⟩
          intro pair member
          rcases List.mem_cons.mp member with rfl | later
          · exact inlines_of_dependency first
          · exact leads pair later

end Setting

/-- What happens to an import statement depends on which of its imports lead to module files. -/
theorem importEdit_eq
    {leads : ImportDeclaration → Bool}
    {imports : List (ImportDeclaration × Option Dependency)}
    (settled : ∀ pair ∈ imports, pair.2.isSome = leads pair.1) :
    importEdit imports =
      if (imports.map (·.1)).all leads then
        .drop
      else if (imports.map (·.1)).any leads then
        .replace (keptImport (((imports.map (·.1)).filter (!leads ·)).map (·.text)))
      else
        .keep := by
  have keptEq :
      (imports.filter (·.2.isNone)).map (·.1.text) =
        ((imports.map (·.1)).filter (!leads ·)).map (·.text) := by
    rw [List.filter_map, List.map_map]
    have sameFilter : imports.filter (·.2.isNone) =
        imports.filter ((!leads ·) ∘ (·.1)) := by
      apply List.filter_congr
      intro pair member
      rw [Function.comp_apply, ← settled pair member, Option.not_isSome]
    rw [sameFilter]
    rfl
  have emptyIff :
      (((imports.map (·.1)).filter (!leads ·)).map (·.text)).isEmpty =
        (imports.map (·.1)).all leads := by
    rw [Bool.eq_iff_iff, List.isEmpty_iff, List.map_eq_nil_iff, List.filter_eq_nil_iff,
      List.all_eq_true]
    simp
  have fewerIff :
      (((imports.map (·.1)).filter (!leads ·)).map (·.text)).length < imports.length ↔
        (imports.map (·.1)).any leads = true := by
    have sameLength : imports.length = (imports.map (·.1)).length := by simp
    rw [List.length_map, sameLength, List.length_filter_lt_length_iff_exists, List.any_eq_true]
    simp
  unfold importEdit
  dsimp only
  rw [keptEq, emptyIff]
  simp only [fewerIff]

/-! ## Finding the edit of a statement -/

theorem nodup_eraseDups
    {α : Type}
    [BEq α]
    [LawfulBEq α]
    (items : List α) :
    items.eraseDups.Nodup := by
  generalize length : items.length = count
  induction count using Nat.strong_induction_on generalizing items with
  | _ count inductionHypothesis =>
      cases items with
      | nil => simp
      | cons first rest =>
          rw [List.eraseDups_cons, List.nodup_cons]
          refine ⟨by simp, inductionHypothesis _ ?_ _ rfl⟩
          rw [← length, List.length_cons]
          exact Nat.lt_succ_of_le (List.length_filter_le _ _)

/-- A last item that has come up before is a repetition. -/
theorem eraseDups_concat
    {α : Type}
    [BEq α]
    [LawfulBEq α]
    (items : List α)
    (last : α) :
    (items ++ [last]).eraseDups =
      if last ∈ items then items.eraseDups else items.eraseDups ++ [last] := by
  rw [List.eraseDups_append, List.removeAll, List.filter_cons]
  by_cases repeated : last ∈ items
  · simp [repeated]
  · simp [repeated, List.eraseDups_cons]

theorem lookup_map_of_keys
    {β : Type}
    (keys : List Nat)
    (value : Nat → β)
    (key : Nat) :
    (keys.map fun other => (other, value other)).lookup key =
      if key ∈ keys then some (value key) else none := by
  induction keys with
  | nil => simp
  | cons first rest inductionHypothesis =>
      by_cases same : key = first
      · subst same
        simp
      · have different : (key == first) = false := by simpa using same
        simp [List.lookup_cons, different, inductionHypothesis, same]

theorem lookup_importEdits
    (imports : List (ImportDeclaration × Option Dependency))
    (index : Nat) :
    (importEdits imports).lookup index =
      if index ∈ imports.map (·.1.statement) then
        some (importEdit (imports.filter (·.1.statement == index)))
      else
        none := by
  rw [importEdits, lookup_map_of_keys]
  simp only [List.mem_eraseDups]

theorem keys_importEdits (imports : List (ImportDeclaration × Option Dependency)) :
    (importEdits imports).map (·.1) = (imports.map (·.1.statement)).eraseDups := by
  simp [importEdits, Function.comp_def]

namespace MergeConfig

variable {config : MergeConfig} {isMain : Bool} {source : ParsedSource}

theorem mem_statementEdits_iff
    {index : Nat}
    {edit : Edit} :
    (index, edit) ∈ config.statementEdits isMain source ↔
      ∃ statement, source.statements[index]? = some statement ∧
        config.statementEdit isMain statement = some edit := by
  unfold statementEdits
  rw [List.mem_filterMap]
  constructor
  · rintro ⟨⟨statement, number⟩, paired, mapped⟩
    obtain ⟨other, edited, same⟩ := Option.map_eq_some_iff.mp mapped
    simp only [Prod.mk.injEq] at same
    obtain ⟨rfl, rfl⟩ := same
    exact ⟨statement, List.mem_zipIdx_iff_getElem?.mp paired, edited⟩
  · rintro ⟨statement, found, edited⟩
    exact ⟨(statement, index), List.mem_zipIdx_iff_getElem?.mpr found, by simp [edited]⟩

theorem sublist_keys_statementEdits :
    ((config.statementEdits isMain source).map (·.1)).Sublist
      (List.range source.statements.length) := by
  have general (pairs : List (Statement × Nat)) :
      ((pairs.filterMap fun pair =>
        (config.statementEdit isMain pair.1).map (pair.2, ·)).map (·.1)).Sublist
          (pairs.map (·.2)) := by
    induction pairs with
    | nil => simp
    | cons pair pairs inductionHypothesis =>
        obtain ⟨statement, index⟩ := pair
        cases edited : config.statementEdit isMain statement with
        | none => simpa [edited] using inductionHypothesis.cons index
        | some edit => simpa [edited] using inductionHypothesis
  have numbers := general source.statements.zipIdx
  rwa [List.zipIdx_map_snd, ← List.range_eq_range'] at numbers

theorem lookup_statementEdits
    {index : Nat}
    {statement : Statement}
    (found : source.statements[index]? = some statement) :
    (config.statementEdits isMain source).lookup index =
      config.statementEdit isMain statement := by
  have agrees (edit : Edit) (member : (index, edit) ∈ config.statementEdits isMain source) :
      config.statementEdit isMain statement = some edit := by
    obtain ⟨other, otherFound, edited⟩ := mem_statementEdits_iff.mp member
    rw [found] at otherFound
    rw [Option.some.inj otherFound]
    exact edited
  cases looked : (config.statementEdits isMain source).lookup index with
  | some edit =>
      obtain ⟨before, after, split, _⟩ := List.lookup_eq_some_iff.mp looked
      exact (agrees edit (by simp [split])).symm
  | none =>
      cases edited : config.statementEdit isMain statement with
      | none => rfl
      | some edit =>
          have member := mem_statementEdits_iff.mpr ⟨statement, found, edited⟩
          have absent := List.lookup_eq_none_iff.mp looked _ member
          simp at absent

end MergeConfig

/-! ## The edits of a planned file -/

/-- The edits of a file: an import statement is dropped, replaced or kept as all, some or none of
its imports lead to module files, an import of language features is dropped if these move to the
top, and a block that runs only in the main file is dropped from other files if asked for.  No
statement has two edits.

The text of an import statement is spelled by the clauses of its imports.  Where some of them lead
to module files and some do not, the statement names modules only, and the clauses of the latter are
left. -/
structure Setting.EditsStatements (setting : Setting) (location : Location) (isMain : Bool)
    (source : ParsedSource) (module : Module) : Prop where
  declared : ∀ index statement, source.statements[index]? = some statement →
    statement.kind = .importing → source.declarationsOf index ≠ []
  spelled : ∀ index statement, source.statements[index]? = some statement →
    statement.kind = .importing →
      SpellsImport ((source.declarationsOf index).map (·.toImportClause))
        (statement.span.slice source.text)
  written : ∀ index statement, source.statements[index]? = some statement →
    OccurInOrder ((source.declarationsOf index).map (·.text)) (statement.span.slice source.text)
  dropped : ∀ index statement, source.statements[index]? = some statement →
    statement.kind = .importing →
      (∀ declaration ∈ source.declarationsOf index,
        setting.inlines location declaration = true) →
        module.edit index = .drop
  replaced : ∀ index statement, source.statements[index]? = some statement →
    statement.kind = .importing →
      (∃ declaration ∈ source.declarationsOf index,
        setting.inlines location declaration = true) →
      (∃ declaration ∈ source.declarationsOf index,
        setting.inlines location declaration = false) →
        module.edit index =
            .replace ("import ".toList ++ Text.joinWith [',', ' ']
              (((source.declarationsOf index).filter (!setting.inlines location ·)).map (·.text))) ∧
          ∀ declaration ∈ source.declarationsOf index,
            ∃ newName, declaration.names = .module newName
  kept : ∀ index statement, source.statements[index]? = some statement →
    statement.kind = .importing →
      (∀ declaration ∈ source.declarationsOf index,
        setting.inlines location declaration = false) →
        module.edit index = .keep
  future : ∀ index statement names, source.statements[index]? = some statement →
    statement.kind = .future names →
      module.edit index = if setting.config.hoistFutureImports = true then .drop else .keep
  mainGuard : ∀ index statement, source.statements[index]? = some statement →
    statement.kind = .mainGuard →
      module.edit index =
        if isMain = false ∧ setting.config.stripMainGuard = true then .drop else .keep
  other : ∀ index statement, source.statements[index]? = some statement →
    (statement.kind = .other ∨ ∃ name, statement.kind = .definition name) →
      module.edit index = .keep
  nodup : (module.edits.map (·.1)).Nodup

section Planned

variable {setting : Setting} {id : Nat} {location : Location} {isMain lenient : Bool}
variable {text : Text} {nodes : List Node}
variable {imports : List (ImportDeclaration × Option Dependency)} {remarks : List Remark}

theorem spellsImport_declarationsOf
    (lays : Lays text nodes)
    {index : Nat}
    {node : Node}
    (found : nodes[index]? = some node)
    (isImport : node.form.kind = .importing) :
    SpellsImport
      (((ParsedSource.ofNodes text nodes).declarationsOf index).map (·.toImportClause))
      (node.span.slice text) := by
  have sound := lays.forms node (List.mem_of_getElem? found)
  have clauses : ((ParsedSource.ofNodes text nodes).declarationsOf index).map (·.toImportClause) =
      node.form.clauses := by
    rw [ParsedSource.declarationsOf_ofNodes found, List.map_map]
    exact List.map_id _
  rw [clauses]
  cases form : node.form with
  | importing clauses =>
      rw [form] at sound
      exact sound
  | branch condition =>
      rw [form, Form.kind] at isImport
      split at isImport <;> cases isImport
  | _ =>
      rw [form] at isImport
      cases isImport

theorem declarationsOf_ne_nil
    (lays : Lays text nodes)
    {index : Nat}
    {node : Node}
    (found : nodes[index]? = some node)
    (isImport : node.form.kind = .importing) :
    (ParsedSource.ofNodes text nodes).declarationsOf index ≠ [] := by
  have someClauses := (spellsImport_declarationsOf lays found isImport).ne_nil
  rwa [ne_eq, List.map_eq_nil_iff] at someClauses

/-- Only imports have clauses. -/
theorem kind_of_mem_declarationsOf
    {index : Nat}
    {node : Node}
    (found : nodes[index]? = some node)
    {declaration : ImportDeclaration}
    (member : declaration ∈ (ParsedSource.ofNodes text nodes).declarationsOf index) :
    node.form.kind = .importing := by
  rw [ParsedSource.declarationsOf_ofNodes found] at member
  obtain ⟨clause, clauseMember, _⟩ := List.mem_map.mp member
  cases form : node.form with
  | importing clauses => rfl
  | _ =>
      rw [form] at clauseMember
      cases clauseMember

theorem occurInOrder_declarationsOf
    (lays : Lays text nodes)
    {index : Nat}
    {node : Node}
    (found : nodes[index]? = some node) :
    OccurInOrder (((ParsedSource.ofNodes text nodes).declarationsOf index).map (·.text))
      (node.span.slice text) := by
  cases declarations : (ParsedSource.ofNodes text nodes).declarationsOf index with
  | nil => trivial
  | cons declaration others =>
      have isImport := kind_of_mem_declarationsOf found (declarations ▸ List.mem_cons_self)
      have occur := (spellsImport_declarationsOf lays found isImport).occurInOrder
      rwa [declarations, List.map_map] at occur

theorem map_fst_filter
    (settled : setting.dependencies location lenient (ParsedSource.ofNodes text nodes).imports =
      (remarks, .ok imports))
    (index : Nat) :
    (imports.filter (·.1.statement == index)).map (·.1) =
      (ParsedSource.ofNodes text nodes).declarationsOf index := by
  rw [ParsedSource.declarationsOf, ← (Setting.inlines_of_dependencies settled).1, List.filter_map]
  rfl

/-- A statement that imports belong to is an import. -/
theorem exists_import_of_met
    (settled : setting.dependencies location lenient (ParsedSource.ofNodes text nodes).imports =
      (remarks, .ok imports))
    {index : Nat}
    (met : index ∈ imports.map (·.1.statement)) :
    ∃ node, nodes[index]? = some node ∧ node.form.kind = .importing := by
  obtain ⟨pair, member, rfl⟩ := List.mem_map.mp met
  have declared : pair.1 ∈ (ParsedSource.ofNodes text nodes).imports := by
    rw [← (Setting.inlines_of_dependencies settled).1]
    exact List.mem_map_of_mem member
  obtain ⟨index, node, same, found, isImport⟩ := exists_node_of_mem_declarationsFrom declared
  rw [same, Nat.zero_add]
  exact ⟨node, found, isImport⟩

/-- The edit of a statement that is an import. -/
theorem edit_of_importing
    (lays : Lays text nodes)
    (settled : setting.dependencies location lenient (ParsedSource.ofNodes text nodes).imports =
      (remarks, .ok imports))
    {index : Nat}
    {node : Node}
    (found : nodes[index]? = some node)
    (isImport : node.form.kind = .importing) :
    (setting.plannedModule id location isMain (.ofNodes text nodes) imports).edit index =
      let declarations := (ParsedSource.ofNodes text nodes).declarationsOf index
      if declarations.all (setting.inlines location) then
        .drop
      else if declarations.any (setting.inlines location) then
        .replace (keptImport ((declarations.filter (!setting.inlines location ·)).map (·.text)))
      else
        .keep := by
  have declarations := map_fst_filter settled index
  have leads : ∀ pair ∈ imports.filter (·.1.statement == index),
      pair.2.isSome = setting.inlines location pair.1 := by
    intro pair member
    exact (Setting.inlines_of_dependencies settled).2 pair (List.mem_of_mem_filter member)
  have met : index ∈ imports.map (·.1.statement) := by
    have some := declarationsOf_ne_nil lays found isImport
    rw [← declarations, ne_eq, List.map_eq_nil_iff] at some
    obtain ⟨pair, member⟩ := List.exists_mem_of_ne_nil _ some
    obtain ⟨inImports, same⟩ := List.mem_filter.mp member
    exact List.mem_map.mpr ⟨pair, inImports, by simpa using same⟩
  have edit := importEdit_eq leads
  rw [declarations] at edit
  simp only [Module.edit, Setting.plannedModule, List.lookup_append, lookup_importEdits, if_pos met,
    Option.some_or, Option.getD_some, edit]

/-- The edit of a statement that is no import. -/
theorem edit_of_not_importing
    (settled : setting.dependencies location lenient (ParsedSource.ofNodes text nodes).imports =
      (remarks, .ok imports))
    {index : Nat}
    {node : Node}
    (found : nodes[index]? = some node)
    (notImport : node.form.kind ≠ .importing) :
    (setting.plannedModule id location isMain (.ofNodes text nodes) imports).edit index =
      (setting.config.statementEdit isMain (node.statement text)).getD .keep := by
  have notMet : index ∉ imports.map (·.1.statement) := by
    intro met
    obtain ⟨other, otherFound, isImport⟩ := exists_import_of_met settled met
    rw [otherFound] at found
    exact notImport (Option.some.inj found ▸ isImport)
  have statement :
      (ParsedSource.ofNodes text nodes).statements[index]? = some (node.statement text) := by
    simp [ParsedSource.ofNodes, found]
  simp only [Module.edit, Setting.plannedModule, List.lookup_append, lookup_importEdits,
    if_neg notMet, Option.none_or, MergeConfig.lookup_statementEdits statement]

/-- A statement of a source is that of a node. -/
theorem exists_node_of_statements
    {index : Nat}
    {statement : Statement}
    (found : (ParsedSource.ofNodes text nodes).statements[index]? = some statement) :
    ∃ node, nodes[index]? = some node ∧ statement = node.statement text := by
  rw [ParsedSource.ofNodes, List.getElem?_map] at found
  obtain ⟨node, nodeFound, rfl⟩ := Option.map_eq_some_iff.mp found
  exact ⟨node, nodeFound, rfl⟩

theorem nodup_edits
    (settled : setting.dependencies location lenient (ParsedSource.ofNodes text nodes).imports =
      (remarks, .ok imports)) :
    ((setting.plannedModule id location isMain (.ofNodes text nodes) imports).edits.map
      (·.1)).Nodup := by
  simp only [Setting.plannedModule, List.map_append, keys_importEdits]
  refine (nodup_eraseDups _).append
    (MergeConfig.sublist_keys_statementEdits.nodup List.nodup_range) ?_
  intro index imported edited
  obtain ⟨node, nodeFound, isImport⟩ :=
    exists_import_of_met settled (List.mem_eraseDups.mp imported)
  obtain ⟨entry, member, rfl⟩ := List.mem_map.mp edited
  obtain ⟨statement, found, edit⟩ := MergeConfig.mem_statementEdits_iff.mp member
  obtain ⟨other, otherFound, rfl⟩ := exists_node_of_statements found
  rw [nodeFound] at otherFound
  obtain rfl := Option.some.inj otherFound
  -- The second pass passes over imports of modules.
  simp [MergeConfig.statementEdit, Node.statement, isImport] at edit

/-- An import statement with more than one import names modules only. -/
theorem names_of_two_declarations
    (lays : Lays text nodes)
    {index : Nat}
    {node : Node}
    (found : nodes[index]? = some node)
    {first second : ImportDeclaration}
    (firstMember : first ∈ (ParsedSource.ofNodes text nodes).declarationsOf index)
    (secondMember : second ∈ (ParsedSource.ofNodes text nodes).declarationsOf index)
    (different : first ≠ second)
    {declaration : ImportDeclaration}
    (member : declaration ∈ (ParsedSource.ofNodes text nodes).declarationsOf index) :
    ∃ newName, declaration.names = .module newName := by
  have isImport := kind_of_mem_declarationsOf found member
  rcases (spellsImport_declarationsOf lays found isImport).eq_singleton_or_forall_module with
    ⟨only, single⟩ | modules
  · obtain ⟨declared, single, _⟩ := List.map_eq_singleton_iff.mp single
    rw [single, List.mem_singleton] at firstMember secondMember
    exact absurd (firstMember.trans secondMember.symm) different
  · exact modules _ (List.mem_map_of_mem member)

theorem plan_eq_ok
    {source : ParsedSource}
    {module : Module}
    (planned : setting.plan id location isMain lenient source = (remarks, .ok module)) :
    ∃ imports,
      setting.dependencies location lenient source.imports = (remarks, .ok imports) ∧
        module = setting.plannedModule id location isMain source imports := by
  unfold Setting.plan at planned
  split at planned
  next => simp at planned
  next found imports settled =>
    simp only [Prod.mk.injEq, Except.ok.injEq] at planned
    obtain ⟨rfl, rfl⟩ := planned
    exact ⟨imports, settled, rfl⟩

theorem edit_eq_replace
    (lays : Lays text nodes)
    (settled : setting.dependencies location lenient (ParsedSource.ofNodes text nodes).imports =
      (remarks, .ok imports))
    {index : Nat}
    {node : Node}
    (found : nodes[index]? = some node)
    (isImport : node.form.kind = .importing)
    {first second : ImportDeclaration}
    (firstMember : first ∈ (ParsedSource.ofNodes text nodes).declarationsOf index)
    (secondMember : second ∈ (ParsedSource.ofNodes text nodes).declarationsOf index)
    (firstLeads : setting.inlines location first = true)
    (secondStays : setting.inlines location second = false) :
    (setting.plannedModule id location isMain (.ofNodes text nodes) imports).edit index =
      .replace (keptImport ((((ParsedSource.ofNodes text nodes).declarationsOf index).filter
        (!setting.inlines location ·)).map (·.text))) := by
  have notAll : ¬ ((ParsedSource.ofNodes text nodes).declarationsOf index).all
      (setting.inlines location) = true := by
    rw [List.all_eq_true]
    intro allLead
    rw [allLead second secondMember] at secondStays
    cases secondStays
  have someLead : ((ParsedSource.ofNodes text nodes).declarationsOf index).any
      (setting.inlines location) = true :=
    List.any_eq_true.mpr ⟨first, firstMember, firstLeads⟩
  rw [edit_of_importing lays settled found isImport]
  dsimp only
  rw [if_neg notAll, if_pos someLead]

theorem edit_eq_keep
    (lays : Lays text nodes)
    (settled : setting.dependencies location lenient (ParsedSource.ofNodes text nodes).imports =
      (remarks, .ok imports))
    {index : Nat}
    {node : Node}
    (found : nodes[index]? = some node)
    (isImport : node.form.kind = .importing)
    (noneLead : ∀ declaration ∈ (ParsedSource.ofNodes text nodes).declarationsOf index,
      setting.inlines location declaration = false) :
    (setting.plannedModule id location isMain (.ofNodes text nodes) imports).edit index =
      .keep := by
  have noneAny : ¬ ((ParsedSource.ofNodes text nodes).declarationsOf index).any
      (setting.inlines location) = true := by
    rw [List.any_eq_true]
    rintro ⟨declaration, member, leads⟩
    rw [noneLead declaration member] at leads
    cases leads
  have notAll : ¬ ((ParsedSource.ofNodes text nodes).declarationsOf index).all
      (setting.inlines location) = true := by
    rw [List.all_eq_true]
    intro allLead
    obtain ⟨first, member⟩ :=
      List.exists_mem_of_ne_nil _ (declarationsOf_ne_nil lays found isImport)
    exact noneAny (List.any_eq_true.mpr ⟨first, member, allLead first member⟩)
  rw [edit_of_importing lays settled found isImport]
  dsimp only
  rw [if_neg notAll, if_neg noneAny]

/-- A file that is planned gets the edits that its statements call for. -/
theorem editsStatements_of_plan
    (lays : Lays text nodes)
    {module : Module}
    (planned : setting.plan id location isMain lenient (.ofNodes text nodes) =
      (remarks, .ok module)) :
    setting.EditsStatements location isMain (.ofNodes text nodes) module := by
  obtain ⟨imports, settled, rfl⟩ := plan_eq_ok planned
  refine ⟨?_, ?_, ?_, ?_, ?_, ?_, ?_, ?_, ?_, nodup_edits settled⟩
  · intro index statement found isImport
    obtain ⟨node, nodeFound, rfl⟩ := exists_node_of_statements found
    exact declarationsOf_ne_nil lays nodeFound isImport
  · intro index statement found isImport
    obtain ⟨node, nodeFound, rfl⟩ := exists_node_of_statements found
    exact spellsImport_declarationsOf lays nodeFound isImport
  · intro index statement found
    obtain ⟨node, nodeFound, rfl⟩ := exists_node_of_statements found
    exact occurInOrder_declarationsOf lays nodeFound
  · intro index statement found isImport allLead
    obtain ⟨node, nodeFound, rfl⟩ := exists_node_of_statements found
    rw [edit_of_importing lays settled nodeFound isImport]
    exact if_pos (List.all_eq_true.mpr allLead)
  · rintro index statement found isImport
      ⟨first, firstMember, firstLeads⟩ ⟨second, secondMember, secondStays⟩
    obtain ⟨node, nodeFound, rfl⟩ := exists_node_of_statements found
    refine ⟨edit_eq_replace lays settled nodeFound isImport firstMember secondMember firstLeads
      secondStays, fun declaration => ?_⟩
    apply names_of_two_declarations lays nodeFound firstMember secondMember
    rintro rfl
    rw [firstLeads] at secondStays
    cases secondStays
  · intro index statement found isImport noneLead
    obtain ⟨node, nodeFound, rfl⟩ := exists_node_of_statements found
    exact edit_eq_keep lays settled nodeFound isImport noneLead
  · intro index statement names found isFuture
    obtain ⟨node, nodeFound, rfl⟩ := exists_node_of_statements found
    have kind : node.form.kind = .future names := isFuture
    rw [edit_of_not_importing settled nodeFound (by simp [kind])]
    simp only [MergeConfig.statementEdit, isFuture]
    split <;> rfl
  · intro index statement found isGuard
    obtain ⟨node, nodeFound, rfl⟩ := exists_node_of_statements found
    have kind : node.form.kind = .mainGuard := isGuard
    rw [edit_of_not_importing settled nodeFound (by simp [kind])]
    simp only [MergeConfig.statementEdit, isGuard, Bool.and_eq_true, Bool.not_eq_true']
    split <;> rfl
  · intro index statement found isOther
    obtain ⟨node, nodeFound, rfl⟩ := exists_node_of_statements found
    have notImport : node.form.kind ≠ .importing := by
      rcases isOther with other | ⟨name, definition⟩
      · exact fun isImport => by cases isImport.symm.trans other
      · exact fun isImport => by cases isImport.symm.trans definition
    rw [edit_of_not_importing settled nodeFound notImport]
    rcases isOther with other | ⟨name, definition⟩
    · simp [MergeConfig.statementEdit, other]
    · simp [MergeConfig.statementEdit, definition]

/-- A file that is loaded and could be analysed gets the edits that its statements call for. -/
theorem editsStatements_of_load
    {module : Module}
    {source : ParsedSource}
    (loaded : setting.load id location isMain = (remarks, .ok module))
    (parsed : module.parsed = some source) :
    setting.EditsStatements location isMain source module := by
  cases Setting.loads_of_load loaded with
  | analysed readable analysed settled =>
      obtain rfl := Option.some.inj parsed
      obtain ⟨nodes, rfl, lays⟩ := exists_nodes_of_parse analysed
      apply editsStatements_of_plan lays
      rw [Setting.plan, settled]
      rfl
  | verbatim => cases parsed

end Planned

end Inliner
