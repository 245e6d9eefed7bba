import Inliner.Proofs.Syntax.Expressions

/-!
# Names that statements bind

Executing a statement binds names in the scope it stands in: the targets of assignments and loops,
the names of definitions and what imports bind, also in the blocks of the statement.  The names of
its outermost construct are told apart from those of the later targets of a chained assignment and
from those in blocks, and these three are all names that a statement of a program binds.
-/

namespace Inliner.Syntax

open Inliner.Syntax.Parser

namespace Tree

/-! ## Names by the construct that binds them -/

/-- The names that executing a piece of code binds in its own scope.  Functions, classes and
comprehensions have scopes of their own. -/
def executedNames : Tree → List String
  | .seq first second => first.executedNames ++ second.executedNames
  | .binding .comprehension _ _ => []
  | .binding .assignment target rest => target.boundNames ++ rest.executedNames
  | .binding .loop target rest => target.boundNames ++ rest.executedNames
  | .update target rest => target.boundNames ++ rest.executedNames
  | .function identifier _ _ _ _ => [identifier]
  | .classDefinition identifier _ => [identifier]
  | .decorated _ definition => definition.executedNames
  | .importing names _ => names
  | .block statements => statements.executedNames
  | _ => []

/-- The names that a statement binds itself: the first target of an assignment, the name of a
definition or what an import binds. -/
def outermostNames : Tree → List String
  | .binding .assignment target _ => target.boundNames
  | .update target _ => target.boundNames
  | .function identifier _ _ _ _ => [identifier]
  | .classDefinition identifier _ => [identifier]
  | .decorated _ definition => definition.outermostNames
  | .importing names _ => names
  | _ => []

/-- The names in the targets of the assignments that a right side consists of. -/
def targetNames : Tree → List String
  | .seq _ rest => rest.targetNames
  | .binding .assignment target rest => target.boundNames ++ rest.targetNames
  | .update target rest => target.boundNames ++ rest.targetNames
  | _ => []

/-- The names in the targets of an assignment after the first one. -/
def laterNames : Tree → List String
  | .binding .assignment _ rest => rest.targetNames
  | .update _ rest => rest.targetNames
  | _ => []

/-- The names in the blocks of a statement and in the target of a loop. -/
def blockNames : Tree → List String
  | .seq first second => first.blockNames ++ second.blockNames
  | .binding .loop target rest => target.boundNames ++ rest.blockNames
  | .block statements => statements.executedNames
  | _ => []

/-! ## Shapes of statements -/

/-- The tree is that of a right side: a value, or another assignment.  An annotation may stand
before it. -/
inductive IsRightSide : Tree → Prop where
  | value {tree : Tree} : IsExpression tree → IsRightSide tree
  | annotated {kind rest : Tree} :
      IsExpression kind → IsRightSide rest → IsRightSide (.seq kind rest)
  | assignment {target rest : Tree} :
      IsExpression target → IsRightSide rest → IsRightSide (.binding .assignment target rest)
  | update {target rest : Tree} :
      IsExpression target → IsRightSide rest → IsRightSide (.update target rest)

/-- The tree is that of an assignment to a target. -/
inductive IsAssignment (target : Tree) : Tree → Prop where
  | assignment {rest : Tree} :
      IsRightSide rest → IsAssignment target (.binding .assignment target rest)
  | update {rest : Tree} : IsRightSide rest → IsAssignment target (.update target rest)

/-- The tree is that of a definition of a name. -/
inductive IsDefinition (identifier : String) : Tree → Prop where
  | function (typeParameters parameters returns body : Tree) :
      IsDefinition identifier (.function identifier typeParameters parameters returns body)
  | classDefinition (rest : Tree) : IsDefinition identifier (.classDefinition identifier rest)
  | decorated {definition : Tree} (decorators : Tree) :
      IsDefinition identifier definition →
        IsDefinition identifier (.decorated decorators definition)

/-- The tree is that of expressions and blocks. -/
inductive IsClauses : Tree → Prop where
  | expression {tree : Tree} : IsExpression tree → IsClauses tree
  | seq {first second : Tree} : IsClauses first → IsClauses second → IsClauses (.seq first second)
  | loop {target rest : Tree} :
      IsExpression target → IsClauses rest → IsClauses (.binding .loop target rest)
  | block (statements : Tree) : IsClauses (.block statements)

namespace IsExpression

variable {tree : Tree}

theorem executedNames_eq_nil (isExpression : IsExpression tree) : tree.executedNames = [] := by
  induction isExpression with
  | seq _ _ first second => simp [executedNames, first, second]
  | _ => rfl

theorem outermostNames_eq_nil (isExpression : IsExpression tree) : tree.outermostNames = [] := by
  cases isExpression <;> rfl

theorem targetNames_eq_nil (isExpression : IsExpression tree) : tree.targetNames = [] := by
  induction isExpression with
  | seq _ _ _ second => exact second
  | _ => rfl

theorem blockNames_eq_nil (isExpression : IsExpression tree) : tree.blockNames = [] := by
  induction isExpression with
  | seq _ _ first second => simp [blockNames, first, second]
  | _ => rfl

end IsExpression

/-- A right side binds the names of its own targets. -/
theorem IsRightSide.executedNames_eq
    {tree : Tree}
    (isRightSide : IsRightSide tree) :
    tree.executedNames = tree.targetNames := by
  induction isRightSide with
  | value isExpression =>
      rw [isExpression.executedNames_eq_nil, isExpression.targetNames_eq_nil]
  | annotated isExpression _ inductionHypothesis =>
      rw [executedNames, isExpression.executedNames_eq_nil, inductionHypothesis]
      rfl
  | assignment _ _ inductionHypothesis => rw [executedNames, inductionHypothesis, targetNames]
  | update _ _ inductionHypothesis => rw [executedNames, inductionHypothesis, targetNames]

theorem IsAssignment.outermostNames_eq
    {target tree : Tree}
    (isAssignment : IsAssignment target tree) :
    tree.outermostNames = target.boundNames := by
  cases isAssignment <;> rfl

theorem IsAssignment.executedNames_eq
    {target tree : Tree}
    (isAssignment : IsAssignment target tree) :
    tree.executedNames = tree.outermostNames ++ tree.laterNames ++ tree.blockNames := by
  cases isAssignment with
  | assignment isRightSide =>
      simp [executedNames, outermostNames, laterNames, blockNames, isRightSide.executedNames_eq]
  | update isRightSide =>
      simp [executedNames, outermostNames, laterNames, blockNames, isRightSide.executedNames_eq]

namespace IsDefinition

variable {identifier : String} {tree : Tree}

theorem outermostNames_eq (isDefinition : IsDefinition identifier tree) :
    tree.outermostNames = [identifier] := by
  induction isDefinition with
  | function => rfl
  | classDefinition => rfl
  | decorated _ _ inductionHypothesis => exact inductionHypothesis

theorem executedNames_eq (isDefinition : IsDefinition identifier tree) :
    tree.executedNames = tree.outermostNames ++ tree.laterNames ++ tree.blockNames := by
  have only : tree.executedNames = [identifier] := by
    induction isDefinition with
    | function => rfl
    | classDefinition => rfl
    | decorated _ _ inductionHypothesis => exact inductionHypothesis
  have noLater : tree.laterNames = [] := by cases isDefinition <;> rfl
  have noBlock : tree.blockNames = [] := by cases isDefinition <;> rfl
  rw [only, isDefinition.outermostNames_eq, noLater, noBlock]
  rfl

end IsDefinition

namespace IsClauses

variable {tree : Tree}

theorem outermostNames_eq_nil (isClauses : IsClauses tree) : tree.outermostNames = [] := by
  cases isClauses with
  | expression isExpression => exact isExpression.outermostNames_eq_nil
  | _ => rfl

theorem executedNames_eq (isClauses : IsClauses tree) :
    tree.executedNames = tree.outermostNames ++ tree.laterNames ++ tree.blockNames := by
  have inBlocks : tree.executedNames = tree.blockNames := by
    induction isClauses with
    | expression isExpression =>
        rw [isExpression.executedNames_eq_nil, isExpression.blockNames_eq_nil]
    | seq _ _ first second => rw [executedNames, first, second, blockNames]
    | loop _ _ inductionHypothesis => rw [executedNames, inductionHypothesis, blockNames]
    | block => rfl
  have noLater : tree.laterNames = [] := by
    cases isClauses with
    | expression isExpression => cases isExpression <;> rfl
    | _ => rfl
  rw [inBlocks, isClauses.outermostNames_eq_nil, noLater]
  rfl

end IsClauses

end Tree

open Inliner.Syntax.Tree

variable {α : Type} {good : α → Prop} {self : Grammar}

/-! ## Assignments -/

/-- The rules of a grammar read expressions, right sides and blocks. -/
structure ReadsStatements (rules : Grammar) : Prop extends ReadsExpressions rules where
  rightSide : Yields IsRightSide (rules .rightSide)
  block : Yields IsClauses (rules .block)

theorem yields_assignment (inner : ReadsStatements self) :
    Yields (fun result => IsExpression result.1 ∧ IsAssignment result.1 result.2)
      (assignment self) := by
  have expressions := inner.toReadsExpressions
  have annotated := yields_restrictedAnnotation expressions .statement
  refine yields_bind_of_expression (yields_targets expressions .statement) fun left leftGood => ?_
  refine yields_bind fun next => ?_
  split
  next =>
    refine yields_bind fun _ => yields_bind_of_first inner.rightSide fun rest isRightSide => ?_
    exact yields_pure ⟨leftGood, .assignment isRightSide⟩
  next =>
    refine yields_bind fun _ => yields_bind_of_expression annotated fun written isExpression => ?_
    refine yields_bind fun valued => ?_
    split
    · refine yields_bind_of_first inner.rightSide fun rest isRightSide => ?_
      exact yields_pure ⟨leftGood, .assignment (.annotated isExpression isRightSide)⟩
    · exact yields_pure ⟨leftGood, .assignment (.value isExpression)⟩
  next =>
    split
    · refine yields_bind fun _ => yields_bind_of_first inner.rightSide fun rest isRightSide => ?_
      exact yields_pure ⟨leftGood, .update isRightSide⟩
    · exact yields_reject next
  next => exact yields_reject next

theorem yields_rightSide (inner : ReadsStatements self) :
    Yields IsRightSide (rightSide self) := by
  have expressions := inner.toReadsExpressions
  have value {parser : Parser Tree} (yields : Yields IsExpression parser) :
      Yields IsRightSide parser :=
    fun cursor tree after succeeded => .value (yields cursor tree after succeeded)
  refine yields_bind fun first => ?_
  split
  · exact yields_bind fun _ => value (yields_yieldArgument expressions .statement)
  · have values := yields_wholeStatement (yields_expressions expressions .statement)
    refine yields_orElse ?_ (value values)
    refine yields_bind_of_first (yields_assignment inner) ?_
    rintro ⟨target, tree⟩ ⟨isExpression, isAssignment : IsAssignment target tree⟩
    apply yields_pure
    cases isAssignment with
    | assignment isRightSide => exact .assignment isExpression isRightSide
    | update isRightSide => exact .update isExpression isRightSide

/-! ## Compound statements -/

theorem yields_bind_of_clauses
    {parser : Parser Tree}
    {next : Tree → Parser α}
    (first : Yields IsClauses parser)
    (rest : ∀ tree, IsClauses tree → Yields good (next tree)) :
    Yields good (parser >>= next) :=
  yields_bind_of_first first rest

/-- The result is made of expressions and blocks, if there is one. -/
def OffersClauses (result : Option Tree) : Prop :=
  ∀ tree ∈ result, IsClauses tree

theorem yields_collect_clauses
    {step : Parser (Option Tree)}
    (stepYields : Yields OffersClauses step) :
    Yields IsClauses (collect step) :=
  yields_collect (.expression .empty) .seq stepYields

theorem yields_pure_some_clauses
    {tree : Tree}
    (isClauses : IsClauses tree) :
    Yields OffersClauses (pure (some tree)) := by
  apply yields_pure
  rintro _ ⟨⟩
  exact isClauses

theorem yields_pure_no_clauses : Yields OffersClauses (pure none) := by
  apply yields_pure
  rintro _ ⟨⟩

theorem yields_colonBlock (inner : ReadsStatements self) : Yields IsClauses (colonBlock self) :=
  yields_bind fun _ => inner.block

/-- What is read before a block stands before it. -/
theorem yields_colonBlock_after
    (inner : ReadsStatements self)
    {before : Tree}
    (beforeGood : IsExpression before) :
    Yields IsClauses (colonBlock self >>= fun body => pure (.seq before body)) :=
  yields_bind_of_clauses (yields_colonBlock inner) fun _ bodyGood =>
    yields_pure (.seq (.expression beforeGood) bodyGood)

theorem yields_plainClause?
    (inner : ReadsStatements self)
    (word : String) :
    Yields IsClauses (plainClause? self word) := by
  refine yields_bind fun expected => yields_bind fun found => ?_
  exact yields_ite (yields_colonBlock inner) (yields_pure (.expression .empty))

theorem yields_forStatement (inner : ReadsStatements self) :
    Yields IsClauses (forStatement self) := by
  have expressions := inner.toReadsExpressions
  refine yields_bind_of_expression (yields_targets expressions .header) fun left leftGood => ?_
  refine yields_bind fun _ => ?_
  have sources := yields_expressions expressions .header
  refine yields_bind_of_expression sources fun right rightGood => ?_
  refine yields_bind_of_clauses (yields_colonBlock inner) fun body bodyGood => ?_
  refine yields_bind_of_clauses (yields_plainClause? inner "else") fun otherwise otherwiseGood => ?_
  exact yields_pure (.loop leftGood (.seq (.expression rightGood) (.seq bodyGood otherwiseGood)))

theorem yields_whileStatement (inner : ReadsStatements self) :
    Yields IsClauses (whileStatement self) := by
  refine yields_bind_of_expression (inner.expression .header) fun condition conditionGood => ?_
  refine yields_bind_of_clauses (yields_colonBlock inner) fun body bodyGood => ?_
  refine yields_bind_of_clauses (yields_plainClause? inner "else") fun otherwise otherwiseGood => ?_
  exact yields_pure (.seq (.expression conditionGood) (.seq bodyGood otherwiseGood))

theorem yields_withStatement (inner : ReadsStatements self) :
    Yields IsClauses (withStatement self) := by
  have managers := yields_expressions inner.toReadsExpressions .header
  exact yields_bind_of_expression managers fun items itemsGood =>
    yields_colonBlock_after inner itemsGood

theorem yields_caught
    (inner : ReadsExpressions self)
    (group : Bool) :
    Yields IsExpression (caught self group) := by
  refine yields_bind fun next => yields_ite (yields_pure .empty) ?_
  refine yields_bind_of_expression (inner.expression .header) fun kind kindGood => ?_
  refine yields_ite (yields_pure kindGood) (yields_bind fun comma => ?_)
  refine yields_ite ?_ (yields_pure kindGood)
  exact yields_bind_of_expression (inner.expression .header) fun name nameGood =>
    yields_pure (.seq kindGood nameGood)

theorem yields_handler?
    (inner : ReadsStatements self)
    (expected : Expected)
    (group : Bool) :
    Yields OffersClauses (handler? self expected group) := by
  have handled : Yields OffersClauses do
      let kind ← caught self group
      return some (.seq kind (← colonBlock self)) := by
    have kinds := yields_caught inner.toReadsExpressions group
    refine yields_bind_of_expression kinds fun kind kindGood => ?_
    exact yields_bind_of_clauses (yields_colonBlock inner) fun body bodyGood =>
      yields_pure_some_clauses (.seq (.expression kindGood) bodyGood)
  refine yields_bind fun next => ?_
  extract_lets starred
  refine yields_ite (yields_bind fun _ => ?_) yields_pure_no_clauses
  exact yields_ite (yields_bind fun _ => handled) handled

theorem yields_tryStatement (inner : ReadsStatements self) :
    Yields IsClauses (tryStatement self) := by
  have plain := yields_plainClause? inner
  have handlers := yields_handler? inner
  refine yields_bind_of_clauses (yields_colonBlock inner) fun body bodyGood => ?_
  refine yields_bind fun next => yields_ite (yields_bind fun _ => ?_) ?_
  · exact yields_bind_of_clauses (yields_colonBlock inner) fun final finalGood =>
      yields_pure (.seq bodyGood finalGood)
  · refine yields_bind_of_first (handlers _ _) fun handler handlerGood => ?_
    cases handler with
    | none => exact yields_reject next
    | some first =>
        have firstGood := handlerGood first rfl
        refine yields_bind_of_clauses
          (yields_collect_clauses (yields_bind fun _ => handlers _ _)) fun more moreGood => ?_
        refine yields_bind_of_clauses (plain "else") fun otherwise otherwiseGood => ?_
        refine yields_bind_of_clauses (plain "finally") fun final finalGood => ?_
        apply yields_pure
        exact .seq bodyGood (.seq firstGood (.seq moreGood (.seq otherwiseGood finalGood)))

theorem yields_caseClause (inner : ReadsStatements self) :
    Yields IsClauses (caseClause self) := by
  have pattern := inner.casePattern .header
  refine yields_bind_of_expression pattern fun first firstGood => ?_
  refine yields_bind_of_expression ?_ fun more moreGood => yields_bind fun guarded => ?_
  · refine yields_collect_expressions (yields_bind fun comma => yields_ite ?_ yields_pure_none)
    exact yields_bind fun next => yields_ite yields_pure_none (yields_some pattern)
  · have finishGood (guard : Tree) (guardGood : IsExpression guard) :
        Yields IsClauses (colonBlock self >>= fun body =>
          pure (.seq first (.seq more (.seq guard body)))) := by
      refine yields_bind_of_clauses (yields_colonBlock inner) fun body bodyGood => yields_pure ?_
      exact .seq (.expression firstGood)
        (.seq (.expression moreGood) (.seq (.expression guardGood) bodyGood))
    refine yields_ite ?_ ?_
    · exact yields_bind_of_expression (inner.expression .header) finishGood
    · exact yields_bind_of_expression (yields_pure .empty) finishGood

theorem yields_matchStatement (inner : ReadsStatements self) :
    Yields IsClauses (matchStatement self) := by
  have values := yields_expressions inner.toReadsExpressions .header
  refine yields_bind_of_expression values fun subjects subjectsGood => ?_
  refine yields_bind fun _ => yields_bind fun next => ?_
  split
  · exact yields_bind fun _ => yields_pure (.expression subjectsGood)
  · refine yields_bind fun _ => yields_bind_of_clauses ?_ fun clauses clausesGood => ?_
    · refine yields_collect_clauses (yields_bind fun next => ?_)
      split
      · exact yields_bind fun _ => yields_pure_no_clauses
      · exact yields_bind fun _ => yields_bind_of_clauses (yields_caseClause inner)
          fun clause clauseGood => yields_pure_some_clauses clauseGood
      · exact yields_reject next
    · exact yields_pure (.seq (.expression subjectsGood) clausesGood)
  · exact yields_reject next

theorem yields_block : Yields IsClauses (block self) := by
  refine yields_bind fun first => ?_
  split
  · exact yields_bind fun _ => yields_pure (.block .empty)
  · exact yields_bind fun _ => yields_bind fun statements => yields_pure (.block statements)
  · exact yields_bind fun nodes => yields_pure (.block (nodesTree nodes))

theorem readsStatements_grammar (depth : Nat) : ReadsStatements (grammar depth) := by
  induction depth with
  | zero =>
      have fails {good : Tree → Prop} (goal : Goal) : Yields good (grammar 0 goal) := by
        rintro cursor result after succeeded
        cases succeeded
      exact ⟨readsExpressions_grammar 0, fails _, fails _⟩
  | succ depth inner =>
      exact ⟨readsExpressions_grammar (depth + 1), yields_rightSide inner, yields_block⟩

/-! ## Definitions -/

/-- The result is a name and a definition of it. -/
def Defines (result : String × Tree) : Prop :=
  IsDefinition result.1 result.2

theorem yields_functionDefinition : Yields Defines (functionDefinition self) := by
  refine yields_bind fun name => yields_bind fun types => yields_bind fun _ => ?_
  extract_lets mode finish
  have finishGood (bound : Tree) : Yields Defines (finish bound) := by
    refine yields_bind fun _ => yields_bind fun annotated => ?_
    have define (returns : Tree) :
        Yields Defines (colonBlock self >>= fun body =>
          pure (name, .function name types bound returns body)) :=
      yields_bind fun body => yields_pure (.function types bound returns body)
    exact yields_ite (yields_bind define) (yields_bind define)
  clear_value finish
  refine yields_bind fun next => ?_
  exact yields_ite (yields_bind finishGood) (yields_bind finishGood)

theorem yields_classDefinition : Yields Defines (classDefinition self) := by
  refine yields_bind fun name => yields_bind fun types => yields_bind fun parenthesis => ?_
  have define (bases : Tree) :
      Yields Defines (colonBlock self >>= fun body =>
        pure (name, .classDefinition name (.seq types (.seq bases body)))) :=
    yields_bind fun body => yields_pure (.classDefinition _)
  exact yields_ite (yields_bind define) (yields_bind define)

theorem yields_decoratedDefinition : Yields Defines (decoratedDefinition self) := by
  refine yields_bind fun decorators => yields_bind fun next => ?_
  have decorated {parser : Parser (String × Tree)} (yields : Yields Defines parser) :
      Yields Defines (parser >>= fun result => pure (result.1, .decorated decorators result.2)) :=
    yields_bind_of_first yields fun result defines => yields_pure (.decorated decorators defines)
  split
  · exact yields_bind fun _ => decorated yields_functionDefinition
  · exact yields_bind fun _ => yields_bind fun _ => decorated yields_functionDefinition
  · exact yields_bind fun _ => decorated yields_classDefinition
  · exact decorated (yields_reject next)

end Inliner.Syntax
