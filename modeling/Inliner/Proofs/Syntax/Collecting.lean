import Mathlib.Data.Finset.Basic
import Inliner.Proofs.Syntax.Scoping

/-!
# Collecting names in one pass

The names that a statement reads can be collected in one pass over its tree, with one stack of
parameters that all of the pass shares: they are put on it before a body is looked at, and taken
off it afterwards.  Such a pass finds what the scoping rule gives, and leaves the stack as it was.
-/

namespace Inliner.Syntax

/-- What a pass has collected, and the stack of the parameters that hide names. -/
@[ext]
structure Collector where
  all : Finset String
  eager : Finset String
  stack : List String

namespace Collector

/-- Nothing has been collected, and nothing is hidden. -/
def empty : Collector := ⟨∅, ∅, []⟩

/-- Takes note of a name that is read. -/
def add (collector : Collector) (occurrence : Occurrence) : Collector :=
  { collector with
    all := insert occurrence.name collector.all
    eager :=
      if occurrence.deferred then collector.eager else insert occurrence.name collector.eager }

/-- Takes note of a name unless the stack hides it. -/
def record (collector : Collector) (identifier : String) (deferred : Bool) : Collector :=
  if identifier ∈ collector.stack then collector else collector.add ⟨identifier, deferred⟩

/-- Looks at a body with parameters on the stack, and then cuts the stack to its former height. -/
def within
    (collector : Collector)
    (parameters : List String)
    (look : Collector → Collector) :
    Collector :=
  let result := look { collector with stack := collector.stack ++ parameters }
  { result with stack := result.stack.take collector.stack.length }

end Collector

namespace Tree

/-- Collects the names that are read in a tree. -/
def collect (role : Role) (deferred : Bool) : Tree → Collector → Collector
  | .empty, collector => collector
  | .seq first second, collector =>
      second.collect role deferred (first.collect role deferred collector)
  | .name identifier, collector =>
      match role with
      | .value => collector.record identifier deferred
      | .target | .parameters => collector
  | .pattern parts, collector =>
      match role with
      | .value | .target => parts.collect role deferred collector
      | .parameters => collector
  | .parameter binder reads, collector =>
      match role with
      | .value | .target =>
          reads.collect .value deferred (binder.collect .value deferred collector)
      | .parameters => reads.collect .value deferred collector
  | .attribute object _, collector =>
      match role with
      | .value | .target => object.collect .value deferred collector
      | .parameters => collector
  | .subscript value indices, collector =>
      match role with
      | .value | .target =>
          indices.collect .value deferred (value.collect .value deferred collector)
      | .parameters => collector
  | .keyword _ value, collector =>
      match role with
      | .value | .target => value.collect .value deferred collector
      | .parameters => collector
  | .binding _ target rest, collector =>
      match role with
      | .value | .target =>
          rest.collect .value deferred (target.collect .target deferred collector)
      | .parameters => collector
  | .update target rest, collector =>
      match role with
      | .value | .target =>
          rest.collect .value deferred (target.collect .value deferred collector)
      | .parameters => collector
  | .function _ _ parameters returns body, collector =>
      match role with
      | .value | .target =>
          (returns.collect .value deferred
            (parameters.collect .parameters deferred collector)).within
              parameters.parameterNames (body.collect .value true)
      | .parameters => collector
  | .lambda parameters body, collector =>
      match role with
      | .value | .target =>
          (parameters.collect .parameters deferred collector).within
            parameters.parameterNames (body.collect .value true)
      | .parameters => collector
  | .classDefinition _ rest, collector =>
      match role with
      | .value | .target => rest.collect .value deferred collector
      | .parameters => collector
  | .decorated decorators definition, collector =>
      match role with
      | .value | .target =>
          definition.collect .value deferred (decorators.collect .value deferred collector)
      | .parameters => collector
  | .importing _ identifiers, collector =>
      match role with
      | .value | .target => identifiers.collect .value deferred collector
      | .parameters => collector
  | .block statements, collector =>
      match role with
      | .value | .target => statements.collect .value deferred collector
      | .parameters => collector

end Tree

namespace Collector

/-- Takes note of names that are read, whatever the stack hides. -/
def addAll (collector : Collector) (occurrences : List Occurrence) : Collector :=
  occurrences.foldl add collector

theorem addAll_nil (collector : Collector) : collector.addAll [] = collector :=
  rfl

theorem addAll_append (collector : Collector) (first second : List Occurrence) :
    collector.addAll (first ++ second) = (collector.addAll first).addAll second :=
  List.foldl_append

theorem stack_addAll (collector : Collector) (occurrences : List Occurrence) :
    (collector.addAll occurrences).stack = collector.stack := by
  induction occurrences generalizing collector with
  | nil => rfl
  | cons first rest inductionHypothesis => exact inductionHypothesis (collector.add first)

theorem record_eq_addAll (collector : Collector) (identifier : String) (deferred : Bool) :
    collector.record identifier deferred =
      collector.addAll (Scope.read ⟨collector.stack, deferred⟩ identifier) := by
  unfold record Scope.read
  split <;> rfl

theorem addAll_withStack
    (collector : Collector)
    (stack : List String)
    (occurrences : List Occurrence) :
    ({ collector with stack := stack } : Collector).addAll occurrences =
      { collector.addAll occurrences with stack := stack } := by
  induction occurrences generalizing collector with
  | nil => rfl
  | cons first rest inductionHypothesis => exact inductionHypothesis (collector.add first)

/-- A body is looked at with the parameters on the stack, and the stack is left as it was. -/
theorem within_eq_addAll
    {collector : Collector}
    {parameters : List String}
    {look : Collector → Collector}
    {occurrences : List Occurrence}
    (looked :
      look { collector with stack := collector.stack ++ parameters } =
        Collector.addAll { collector with stack := collector.stack ++ parameters } occurrences) :
    collector.within parameters look = collector.addAll occurrences := by
  have former : (collector.addAll occurrences).stack = collector.stack :=
    stack_addAll collector occurrences
  rw [within, looked, addAll_withStack]
  simp only [List.take_left, ← former]

theorem mem_all_addAll
    (collector : Collector)
    (occurrences : List Occurrence)
    (identifier : String) :
    identifier ∈ (collector.addAll occurrences).all ↔
      identifier ∈ occurrences.map (·.name) ∨ identifier ∈ collector.all := by
  induction occurrences generalizing collector with
  | nil => simp [addAll_nil]
  | cons first rest inductionHypothesis =>
      refine (inductionHypothesis (collector.add first)).trans ?_
      simp only [add, Finset.mem_insert, List.map_cons, List.mem_cons]
      tauto

theorem mem_eager_addAll
    (collector : Collector)
    (occurrences : List Occurrence)
    (identifier : String) :
    identifier ∈ (collector.addAll occurrences).eager ↔
      identifier ∈ (occurrences.filter (!·.deferred)).map (·.name) ∨
        identifier ∈ collector.eager := by
  induction occurrences generalizing collector with
  | nil => simp [addAll_nil]
  | cons first rest inductionHypothesis =>
      refine (inductionHypothesis (collector.add first)).trans ?_
      cases later : first.deferred with
      | true => simp [add, later]
      | false =>
          simp only [add, later, Bool.false_eq_true, ↓reduceIte, Finset.mem_insert, Bool.not_false,
            List.filter_cons_of_pos, List.map_cons, List.mem_cons]
          tauto

end Collector

namespace Tree

/-- The pass takes note of the occurrences in the scope that the stack stands for, and nothing
else changes. -/
theorem collect_eq_addAll
    (tree : Tree)
    (role : Role)
    (deferred : Bool)
    (collector : Collector) :
    tree.collect role deferred collector =
      collector.addAll (tree.occurrences role ⟨collector.stack, deferred⟩) := by
  induction tree generalizing role deferred collector with
  | empty => rfl
  | name identifier =>
      cases role with
      | value => exact collector.record_eq_addAll identifier deferred
      | target => rfl
      | parameters => rfl
  | seq first second firstHypothesis secondHypothesis =>
      simp only [collect, occurrences, firstHypothesis, secondHypothesis, Collector.stack_addAll,
        Collector.addAll_append]
  | function name types parameters returns body typesHypothesis parametersHypothesis
      returnsHypothesis bodyHypothesis =>
      have looked (before : Collector) :=
        Collector.within_eq_addAll (bodyHypothesis .value true
          { before with stack := before.stack ++ parameters.parameterNames })
      cases role <;>
        simp only [collect, occurrences, parametersHypothesis, returnsHypothesis, looked,
          Collector.stack_addAll, Collector.addAll_append, Collector.addAll_nil, Scope.body]
  | lambda parameters body parametersHypothesis bodyHypothesis =>
      have looked (before : Collector) :=
        Collector.within_eq_addAll (bodyHypothesis .value true
          { before with stack := before.stack ++ parameters.parameterNames })
      cases role <;>
        simp only [collect, occurrences, parametersHypothesis, looked, Collector.stack_addAll,
          Collector.addAll_append, Collector.addAll_nil, Scope.body]
  | _ =>
      cases role <;>
        simp only [collect, occurrences, *, Collector.stack_addAll,
          Collector.addAll_append, Collector.addAll_nil]

/-- A pass over a statement collects its references, and leaves nothing on the stack. -/
theorem collect_empty (tree : Tree) :
    tree.collect .value false .empty =
      ⟨tree.references.toFinset, tree.eagerReferences.toFinset, []⟩ := by
  rw [collect_eq_addAll]
  ext1
  · ext identifier
    rw [Collector.mem_all_addAll, List.mem_toFinset, references, mem_nameSet]
    exact or_iff_left (Finset.notMem_empty identifier)
  · ext identifier
    rw [Collector.mem_eager_addAll, List.mem_toFinset, eagerReferences, mem_nameSet]
    exact or_iff_left (Finset.notMem_empty identifier)
  · exact Collector.stack_addAll .empty _

end Tree

end Syntax

namespace ParsedSource

open Syntax

/-- The names that a statement reads, other than an import, are those that its tree has in a place
where names are read and no enclosing parameter hides them; it reads them while it runs itself if
the way there enters no body.  One pass with one stack collects them and leaves the stack empty. -/
theorem parse_reads_by_scoping
    {text : Text}
    {source : ParsedSource}
    (parsed : parse text = .ok source) :
    ∃ nodes,
      parseStatements text = .ok nodes ∧
        source.statements = (withJoins text 0 nodes).map (Node.statement text) ∧
          ∀ node ∈ withJoins text 0 nodes, node.form.isRead = true →
            (∀ identifier, identifier ∈ (node.statement text).references ↔
                ∃ path, node.tree.Reads path identifier) ∧
              (∀ identifier, identifier ∈ (node.statement text).eagerReferences ↔
                ∃ path, node.tree.Reads path identifier ∧ .body ∉ path) ∧
              (node.statement text).eagerReferences ⊆ (node.statement text).references ∧
              node.tree.collect .value false .empty =
                ⟨(node.statement text).references.toFinset,
                  (node.statement text).eagerReferences.toFinset, []⟩ := by
  unfold parse at parsed
  split at parsed
  next nodes read =>
    obtain rfl := Except.ok.inj parsed
    refine ⟨nodes, read, rfl, ?_⟩
    intro node _ isRead
    have sameTree : node.readTree = node.tree := if_pos isRead
    simp only [Node.statement, sameTree]
    refine ⟨node.tree.mem_references_iff, node.tree.mem_eagerReferences_iff, ?_, ?_⟩
    · exact node.tree.eagerReferences_subset
    · exact node.tree.collect_empty
  next => cases parsed

/-- A decorated function with a default value, whose body assigns to an attribute and calls an
anonymous function. -/
def layeredText : Text :=
  "@wrap(kind=K)\ndef f(x, y=d) -> r:\n    a.b, z = (lambda k=x: k + y + h)(u)\n".toList

theorem parse_layeredText_reads :
    ∃ source statement,
      parse layeredText = .ok source ∧
        source.statements = [statement] ∧
          statement.references = ["K", "a", "d", "h", "r", "u", "wrap"] ∧
            statement.eagerReferences = ["K", "d", "r", "wrap"] ∧
              ∃ tree : Tree,
                (∃ path, tree.Reads path "h") ∧
                  (¬ ∃ path, tree.Reads path "h" ∧ .body ∉ path) ∧
                    (¬ ∃ path, tree.Reads path "y") ∧
                      (tree.collect .value false .empty).stack = [] := by
  have facts : ∃ source statement,
      parse layeredText = .ok source ∧
        source.statements = [statement] ∧
          statement.references = ["K", "a", "d", "h", "r", "u", "wrap"] ∧
            statement.eagerReferences = ["K", "d", "r", "wrap"] ∧
              statement.kind = .definition "f" :=
    ⟨(parse layeredText).toOption.getD default,
      ((parse layeredText).toOption.getD default).statements.headD default, by decide +kernel⟩
  obtain ⟨source, statement, parsed, statements, references, eager, kind⟩ := facts
  obtain ⟨nodes, _, ofNodes, scoping⟩ := parse_reads_by_scoping parsed
  obtain ⟨node, only, rfl⟩ := List.map_eq_singleton_iff.mp (ofNodes.symm.trans statements)
  have isRead : node.form.isRead = true := by
    cases form : node.form <;> simp [Node.statement, Form.kind, form, Form.isRead] at kind ⊢
  obtain ⟨all, early, _, collected⟩ := scoping node (by simp [only]) isRead
  refine ⟨source, _, parsed, statements, references, eager, node.tree, ?_, ?_, ?_, ?_⟩
  · exact (all "h").mp (by simp [references])
  · exact fun read => absurd ((early "h").mpr read) (by simp [eager])
  · exact fun read => absurd ((all "y").mpr read) (by simp [references])
  · rw [collected]

end ParsedSource

end Inliner
