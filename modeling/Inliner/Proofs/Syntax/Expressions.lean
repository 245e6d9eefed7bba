import Inliner.Proofs.Syntax.Forms

/-!
# Expressions as they are read

What the rules for expressions, targets, replacement fields and patterns read has no statement in
it: neither a block nor an assignment, a loop, a definition or an import.
-/

namespace Inliner.Syntax

open Inliner.Syntax.Parser

/-! ## Trees of expressions -/

namespace Tree

/-- The tree is that of an expression, or of a part of one. -/
inductive IsExpression : Tree → Prop where
  | empty : IsExpression .empty
  | seq {first second : Tree} :
      IsExpression first → IsExpression second → IsExpression (.seq first second)
  | name (identifier : String) : IsExpression (.name identifier)
  | attribute {object : Tree} (field : String) :
      IsExpression object → IsExpression (.attribute object field)
  | subscript {value indices : Tree} :
      IsExpression value → IsExpression indices → IsExpression (.subscript value indices)
  | keyword {value : Tree} (label : String) :
      IsExpression value → IsExpression (.keyword label value)
  | pattern {parts : Tree} : IsExpression parts → IsExpression (.pattern parts)
  | comprehension {target sources : Tree} :
      IsExpression target → IsExpression sources →
        IsExpression (.binding .comprehension target sources)
  | parameter {binder reads : Tree} :
      IsExpression binder → IsExpression reads → IsExpression (.parameter binder reads)
  | lambda {parameters body : Tree} :
      IsExpression parameters → IsExpression body → IsExpression (.lambda parameters body)

/-- What holds of no code, and of two pieces of code one after the other if it holds of both, holds
of pieces of code if it holds of each of them. -/
theorem ofList_induction
    {good : Tree → Prop}
    (empty : good .empty)
    (seq : ∀ {first second}, good first → good second → good (.seq first second))
    {trees : List Tree}
    (allGood : ∀ tree ∈ trees, good tree) :
    good (ofList trees) := by
  fun_induction ofList trees with
  | case1 => exact empty
  | case2 tree => exact allGood tree List.mem_cons_self
  | case3 tree next trees inductionHypothesis =>
      obtain ⟨first, rest⟩ := List.forall_mem_cons.mp allGood
      exact seq first (inductionHypothesis rest)

end Tree

open Inliner.Syntax.Tree (IsExpression)

variable {α : Type} {good : α → Prop} {self : Grammar}

/-! ## Parsers of expressions -/

theorem yields_ite
    {condition : Prop}
    [Decidable condition]
    {first second : Parser α}
    (firstYields : Yields good first)
    (secondYields : Yields good second) :
    Yields good (if condition then first else second) := by
  split
  · exact firstYields
  · exact secondYields

theorem yields_collect
    {good : Tree → Prop}
    (empty : good .empty)
    (seq : ∀ {first second}, good first → good second → good (.seq first second))
    {step : Parser (Option Tree)}
    (stepYields : Yields (fun result => ∀ tree ∈ result, good tree) step) :
    Yields good (collect step) := by
  refine yields_bind_of_first
    (yields_loop (fun trees => ∀ tree ∈ trees, good tree) (by simp) ?_) ?_
  · intro trees allGood
    refine yields_bind_of_first stepYields fun result isGood => ?_
    cases result with
    | some tree => exact yields_pure (List.forall_mem_cons.mpr ⟨isGood tree rfl, allGood⟩)
    | none => exact yields_pure allGood
  · intro trees allGood
    apply yields_pure
    exact Tree.ofList_induction empty seq (by simpa using allGood)

/-- The result is an expression, if there is one. -/
def OffersExpression (result : Option Tree) : Prop :=
  ∀ tree ∈ result, IsExpression tree

theorem yields_bind_of_expression
    {parser : Parser Tree}
    {next : Tree → Parser α}
    (first : Yields IsExpression parser)
    (rest : ∀ tree, IsExpression tree → Yields good (next tree)) :
    Yields good (parser >>= next) :=
  yields_bind_of_first first rest

theorem yields_collect_expressions
    {step : Parser (Option Tree)}
    (stepYields : Yields OffersExpression step) :
    Yields IsExpression (collect step) :=
  yields_collect .empty .seq stepYields

theorem yields_some
    {parser : Parser Tree}
    (parserYields : Yields IsExpression parser) :
    Yields OffersExpression (do return some (← parser)) := by
  refine yields_bind_of_first parserYields fun tree isExpression => yields_pure ?_
  rintro _ ⟨⟩
  exact isExpression

theorem yields_pure_some
    {tree : Tree}
    (isExpression : IsExpression tree) :
    Yields OffersExpression (pure (some tree)) := by
  apply yields_pure
  rintro _ ⟨⟩
  exact isExpression

theorem yields_pure_none : Yields OffersExpression (pure none) := by
  apply yields_pure
  rintro _ ⟨⟩

/-- A parser that goes on as long as something else comes first. -/
theorem yields_collect_while
    {continues : Parser Bool}
    {part : Parser Tree}
    (partYields : Yields IsExpression part) :
    Yields IsExpression
      (collect do if ← continues then return some (← part) else return none) := by
  refine yields_collect_expressions (yields_bind fun goesOn => ?_)
  exact yields_ite (yields_some partYields) yields_pure_none

theorem yields_collect_names
    {continues : Parser Bool}
    {part : Parser String} :
    Yields IsExpression
      (collect do if ← continues then return some (.name (← part)) else return none) := by
  refine yields_collect_expressions (yields_bind fun goesOn => yields_ite ?_ yields_pure_none)
  exact yields_bind fun name => yields_pure_some (.name name)

theorem yields_failAt (offset : Nat) : Yields good (failAt offset) := by
  rintro cursor result after succeeded
  cases succeeded

/-- The rules of a grammar for what is no statement read expressions. -/
structure ReadsExpressions (rules : Grammar) : Prop where
  expression : ∀ mode, Yields IsExpression (rules (.expression mode))
  target : ∀ mode, Yields IsExpression (rules (.target mode))
  field : Yields IsExpression (rules .field)
  casePattern : ∀ mode, Yields IsExpression (rules (.casePattern mode))

/-! ## String literals and lists -/

theorem yields_stringBody
    (inner : ReadsExpressions self)
    (style : StringStyle) :
    Yields IsExpression (stringBody self style) := by
  refine yields_collect_expressions (yields_bind fun cursor => ?_)
  split
  · exact yields_failAt cursor.offset
  · exact yields_bind fun _ => yields_some inner.field
  · exact yields_bind fun _ => yields_pure_none

theorem yields_moreElements
    (mode : Mode)
    (stops : List String)
    {element : Parser Tree}
    (elementYields : Yields IsExpression element) :
    Yields IsExpression (moreElements mode stops element) := by
  refine yields_collect_expressions (yields_bind fun comma => yields_ite ?_ yields_pure_none)
  refine yields_bind fun next => ?_
  split
  · exact yields_ite yields_pure_none (yields_some elementYields)
  · exact yields_ite (yields_some elementYields) yields_pure_none

theorem yields_expressionsUntil
    (inner : ReadsExpressions self)
    (mode : Mode)
    (stops : List String) :
    Yields IsExpression (expressionsUntil self mode stops) := by
  have elements := yields_moreElements mode stops (inner.expression mode)
  refine yields_bind_of_expression (inner.expression mode) fun first firstGood => ?_
  exact yields_bind_of_expression elements fun more moreGood =>
    yields_pure (.seq firstGood moreGood)

theorem yields_expressions
    (inner : ReadsExpressions self)
    (mode : Mode) :
    Yields IsExpression (expressions self mode) :=
  yields_expressionsUntil inner mode []

theorem yields_strictExpressions
    (inner : ReadsExpressions self)
    (mode : Mode) :
    Yields IsExpression (strictExpressions self mode) := by
  refine yields_bind_of_expression (inner.expression mode) fun first firstGood => ?_
  refine yields_bind_of_expression ?_ fun more moreGood => yields_pure (.seq firstGood moreGood)
  exact yields_collect_while (inner.expression mode)

theorem yields_yieldArgument
    (inner : ReadsExpressions self)
    (mode : Mode) :
    Yields IsExpression (yieldArgument self mode) := by
  refine yields_bind fun next => yields_ite ?_ (yields_ite ?_ ?_)
  · exact yields_bind fun _ => inner.expression mode
  · exact yields_expressions inner mode
  · exact yields_pure .empty

theorem yields_expressionsOrYield
    (inner : ReadsExpressions self)
    (mode : Mode) :
    Yields IsExpression (expressionsOrYield self mode) := by
  refine yields_bind fun first => yields_ite ?_ (yields_expressions inner mode)
  exact yields_bind fun _ => yields_yieldArgument inner mode

/-! ## Targets and comprehensions -/

theorem yields_targets
    (inner : ReadsExpressions self)
    (mode : Mode) :
    Yields IsExpression (targets self mode) := by
  have elements := yields_moreElements mode ["in"] (inner.target mode)
  refine yields_bind_of_expression (inner.target mode) fun first firstGood => ?_
  refine yields_bind fun next => yields_ite ?_ (yields_pure firstGood)
  refine yields_bind_of_expression elements fun more moreGood => ?_
  exact yields_pure (.pattern (.seq firstGood moreGood))

theorem yields_forClause
    (inner : ReadsExpressions self)
    (mode : Mode) :
    Yields IsExpression (forClause self mode) := by
  have targets := yields_targets inner mode.unfinished
  refine yields_bind fun _ => yields_bind fun _ => ?_
  refine yields_bind_of_expression targets fun target targetGood => yields_bind fun _ => ?_
  refine yields_bind_of_expression (yields_expressionsUntil inner _ _) fun sources sourcesGood => ?_
  exact yields_pure (.comprehension targetGood sourcesGood)

theorem yields_comprehensionClauses
    (inner : ReadsExpressions self)
    (mode : Mode) :
    Yields IsExpression (comprehensionClauses self mode) := by
  refine yields_bind_of_expression (yields_forClause inner mode) fun first firstGood => ?_
  refine yields_bind_of_expression ?_ fun more moreGood => yields_pure (.seq firstGood moreGood)
  refine yields_collect_expressions (yields_bind fun next => yields_ite ?_ (yields_ite ?_ ?_))
  · exact yields_some (yields_forClause inner mode)
  · exact yields_bind fun _ => yields_some (inner.expression _)
  · exact yields_pure_none

/-! ## Brackets -/

theorem yields_element
    (inner : ReadsExpressions self)
    (mode : Mode) :
    Yields IsExpression (element self mode) := by
  refine yields_bind fun first => ?_
  split
  · exact yields_bind fun _ => inner.expression mode
  · exact yields_bind fun _ => yields_yieldArgument inner mode
  · exact inner.expression mode

theorem yields_listBody
    (inner : ReadsExpressions self)
    (mode : Mode) :
    Yields IsExpression (listBody self mode) := by
  have elements := yields_moreElements mode [] (yields_element inner mode)
  refine yields_bind fun next => yields_ite ?_ ?_
  · exact yields_bind fun _ => yields_pure .empty
  · refine yields_bind_of_expression (yields_element inner mode) fun first firstGood => ?_
    refine yields_bind fun next => ?_
    extract_lets finish
    have finishGood (more : Tree) (moreGood : IsExpression more) :
        Yields IsExpression (finish more) :=
      yields_bind fun _ => yields_pure (.seq firstGood moreGood)
    clear_value finish
    refine yields_ite ?_ ?_
    · exact yields_bind_of_expression (yields_comprehensionClauses inner mode) finishGood
    · exact yields_bind_of_expression elements finishGood

theorem yields_parenthesesBody
    (inner : ReadsExpressions self)
    (mode : Mode) :
    Yields IsExpression (parenthesesBody self mode) := by
  have clauses := yields_comprehensionClauses inner mode
  have elements := yields_moreElements mode [] (yields_element inner mode)
  refine yields_bind fun next => yields_ite ?_ ?_
  · exact yields_bind fun _ => yields_pure .empty
  · refine yields_bind_of_expression (yields_element inner mode) fun first firstGood => ?_
    refine yields_bind fun next => yields_ite ?_ (yields_ite ?_ (yields_ite ?_ ?_))
    · refine yields_bind_of_expression clauses fun more moreGood => ?_
      exact yields_bind fun _ => yields_pure (.seq firstGood moreGood)
    · refine yields_bind_of_expression elements fun more moreGood => ?_
      exact yields_bind fun _ => yields_pure (.seq firstGood moreGood)
    · exact yields_reject next
    · exact yields_bind fun _ => yields_pure (.seq firstGood .empty)

theorem yields_entry
    (inner : ReadsExpressions self)
    (mode : Mode) :
    Yields IsExpression (entry self mode) := by
  refine yields_bind fun first => yields_ite ?_ ?_
  · exact yields_bind fun _ => inner.expression mode
  · refine yields_bind_of_expression (inner.expression _) fun key keyGood => yields_bind fun _ => ?_
    refine yields_bind_of_expression (inner.expression mode) fun value valueGood => ?_
    exact yields_pure (.seq keyGood valueGood)

theorem yields_moreEntries
    (inner : ReadsExpressions self)
    (mode : Mode) :
    Yields IsExpression (moreEntries self mode) := by
  refine yields_collect_expressions (yields_bind fun comma => yields_ite ?_ yields_pure_none)
  refine yields_bind fun next => yields_ite ?_ yields_pure_none
  exact yields_some (yields_entry inner mode)

theorem yields_bracesBody
    (inner : ReadsExpressions self)
    (mode : Mode) :
    Yields IsExpression (bracesBody self mode) := by
  have clauses := yields_comprehensionClauses inner mode
  have entries := yields_moreEntries inner mode
  have elements := yields_moreElements mode [] (yields_element inner mode)
  refine yields_bind fun first => ?_
  split
  · exact yields_bind fun _ => yields_pure .empty
  · exact yields_bind fun _ => yields_bind fun _ => yields_pure .empty
  · refine yields_bind_of_expression (yields_entry inner mode) fun first firstGood => ?_
    refine yields_bind_of_expression entries fun more moreGood => ?_
    exact yields_bind fun _ => yields_pure (.seq firstGood moreGood)
  · refine yields_bind_of_expression (yields_element inner mode) fun head headGood => ?_
    refine yields_bind fun next => ?_
    extract_lets finish
    have finishGood (tree : Tree) (treeGood : IsExpression tree) :
        Yields IsExpression (finish tree) :=
      yields_bind fun _ => yields_pure treeGood
    clear_value finish
    refine yields_ite (yields_bind fun _ => ?_) ?_
    · refine yields_bind_of_expression (inner.expression mode) fun value valueGood => ?_
      refine yields_bind fun next => ?_
      extract_lets finishEntries
      have finishEntriesGood (more : Tree) (moreGood : IsExpression more) :
          Yields IsExpression (finishEntries more) :=
        yields_bind_of_expression (yields_pure (.seq headGood (.seq valueGood moreGood))) finishGood
      clear_value finishEntries
      refine yields_ite ?_ ?_
      · exact yields_bind_of_expression clauses finishEntriesGood
      · exact yields_bind_of_expression entries finishEntriesGood
    · have finishElementsGood (more : Tree) (moreGood : IsExpression more) :
          Yields IsExpression (pure (.seq head more) >>= finish) :=
        yields_bind_of_expression (yields_pure (.seq headGood moreGood)) finishGood
      refine yields_ite ?_ ?_
      · exact yields_bind_of_expression clauses finishElementsGood
      · exact yields_bind_of_expression elements finishElementsGood

/-! ## Calls and subscripts -/

theorem yields_argument
    (inner : ReadsExpressions self)
    (mode : Mode) :
    Yields IsExpression (argument self mode) := by
  refine yields_bind fun first => ?_
  split
  · exact yields_bind fun _ => inner.expression mode
  · exact yields_bind fun _ => inner.expression mode
  · refine yields_ite (yields_bind fun _ => yields_bind fun _ => ?_) (inner.expression mode)
    exact yields_bind_of_expression (inner.expression mode) fun value valueGood =>
      yields_pure (.keyword _ valueGood)
  · exact inner.expression mode

theorem yields_argumentsBody
    (inner : ReadsExpressions self)
    (mode : Mode) :
    Yields IsExpression (argumentsBody self mode) := by
  have clauses := yields_comprehensionClauses inner mode
  refine yields_bind fun next => ?_
  split
  · exact yields_bind fun _ => yields_pure .empty
  · exact yields_bind fun _ => yields_bind fun _ => yields_pure .empty
  · refine yields_bind_of_expression (yields_argument inner mode) fun first firstGood => ?_
    refine yields_bind fun next => ?_
    extract_lets finish
    have finishGood (more : Tree) (moreGood : IsExpression more) :
        Yields IsExpression (finish more) :=
      yields_bind fun _ => yields_pure (.seq firstGood moreGood)
    clear_value finish
    refine yields_ite (yields_bind_of_expression clauses finishGood) ?_
    refine yields_bind_of_expression (yields_collect_expressions ?_) finishGood
    refine yields_bind fun comma => yields_ite (yields_bind fun next => ?_) yields_pure_none
    exact yields_ite (yields_some (yields_argument inner mode)) yields_pure_none

theorem yields_slicePart
    (inner : ReadsExpressions self)
    (mode : Mode) :
    Yields IsExpression (slicePart self mode) := by
  exact yields_bind fun next => yields_ite (inner.expression mode) (yields_pure .empty)

theorem yields_index
    (inner : ReadsExpressions self)
    (mode : Mode) :
    Yields IsExpression (index self mode) := by
  have part := yields_slicePart inner mode
  refine yields_bind fun first => ?_
  extract_lets rest
  have restGood (lower : Tree) (lowerGood : IsExpression lower) :
      Yields IsExpression (rest lower) := by
    refine yields_bind fun sliced => yields_ite ?_ (yields_pure lowerGood)
    refine yields_bind_of_expression part fun upper upperGood => yields_bind fun stepped => ?_
    have finishGood (step : Tree) (stepGood : IsExpression step) :
        Yields IsExpression (pure (.seq lower (.seq upper step))) :=
      yields_pure (.seq lowerGood (.seq upperGood stepGood))
    refine yields_ite ?_ ?_
    · exact yields_bind_of_expression part finishGood
    · exact yields_bind_of_expression (yields_pure .empty) finishGood
  clear_value rest
  refine yields_ite (yields_bind fun _ => yields_bind fun name => yields_pure (.name name)) ?_
  refine yields_ite ?_ ?_
  · exact yields_bind_of_expression (yields_pure .empty) restGood
  · exact yields_bind_of_expression (inner.expression mode) restGood

theorem yields_indicesBody
    (inner : ReadsExpressions self)
    (mode : Mode) :
    Yields IsExpression (indicesBody self mode) := by
  refine yields_bind_of_expression (yields_index inner mode) fun first firstGood => ?_
  refine yields_bind_of_expression (yields_collect_expressions (yields_bind fun _ => ?_)) ?_
  · refine yields_ite (yields_bind fun next => ?_) yields_pure_none
    exact yields_ite (yields_some (yields_index inner mode)) yields_pure_none
  · exact fun more moreGood => yields_bind fun _ => yields_pure (.seq firstGood moreGood)

/-! ## Operands -/

theorem yields_moreStrings
    (inner : ReadsExpressions self)
    (mode : Mode) :
    Yields IsExpression (moreStrings self mode) := by
  refine yields_collect_expressions (yields_bind fun next => ?_)
  split
  · exact yields_bind fun _ => yields_some (yields_stringBody inner _)
  · exact yields_pure_none

theorem yields_atom
    (inner : ReadsExpressions self)
    (mode : Mode) :
    Yields IsExpression (atom self mode) := by
  refine yields_bind fun first => ?_
  split
  · refine yields_bind fun _ => yields_pure ?_
    split
    · exact .empty
    · exact .name _
  · exact yields_bind fun _ => yields_pure .empty
  · refine yields_bind fun _ => ?_
    refine yields_bind_of_expression (yields_stringBody inner _) fun head headGood => ?_
    exact yields_bind_of_expression (yields_moreStrings inner mode) fun more moreGood =>
      yields_pure (.seq headGood moreGood)
  · exact yields_bind fun _ => yields_parenthesesBody inner _
  · exact yields_bind fun _ => yields_listBody inner _
  · exact yields_bind fun _ => yields_bracesBody inner _
  · exact yields_bind fun _ => yields_pure .empty
  · exact yields_reject first

theorem yields_trailers
    (inner : ReadsExpressions self)
    (mode : Mode)
    {head : Tree}
    (headGood : IsExpression head) :
    Yields (fun result : Tree × Bool => IsExpression result.1) (trailers self mode head) := by
  refine yields_loop (fun state : Tree × Bool => IsExpression state.1) headGood ?_
  rintro ⟨tree, accessed⟩ treeGood
  refine yields_bind fun next => ?_
  dsimp only
  split
  · exact yields_bind fun _ => yields_bind fun field => yields_pure (.attribute field treeGood)
  · refine yields_bind fun _ => ?_
    exact yields_bind_of_expression (yields_indicesBody inner _) fun indices indicesGood =>
      yields_pure (.subscript treeGood indicesGood)
  · refine yields_bind fun _ => ?_
    exact yields_bind_of_expression (yields_argumentsBody inner _) fun arguments argumentsGood =>
      yields_pure (.seq treeGood argumentsGood)
  · exact yields_pure treeGood

theorem yields_operand
    (inner : ReadsExpressions self)
    (mode : Mode) :
    Yields IsExpression (operand self mode) := by
  refine yields_bind fun starred => yields_bind fun first => ?_
  refine yields_bind_of_expression (yields_atom inner mode) fun head headGood => ?_
  refine yields_bind_of_first (yields_trailers inner mode headGood) fun result resultGood => ?_
  exact yields_ite (yields_reject first) (yields_pure resultGood)

/-! ## Parameters and annotations -/

theorem yields_starredParameter
    (inner : ReadsExpressions self)
    (mode : Mode) :
    Yields IsExpression (starredParameter self mode) := by
  refine yields_bind fun first => ?_
  split
  next text _ =>
    have trailed := yields_trailers inner mode (.name text)
    refine yields_bind fun _ => yields_bind_of_first trailed ?_
    rintro ⟨tree, accessed⟩ treeGood
    dsimp only
    split
    · exact yields_pure (.pattern treeGood)
    · exact yields_pure (.pattern treeGood)
    · exact yields_pure (.pattern treeGood)
    · exact yields_reject first
  next => exact yields_reject first

theorem yields_annotation
    (inner : ReadsExpressions self)
    (mode : Mode) :
    Yields IsExpression <| annotation self mode := by
  refine yields_bind fun first => yields_ite ?_ (inner.expression _)
  exact yields_bind fun _ => yields_bind fun name => yields_pure (.name name)

theorem yields_restrictedAnnotation
    (inner : ReadsExpressions self)
    (mode : Mode) :
    Yields IsExpression <| restrictedAnnotation self mode := by
  have annotated := yields_annotation inner mode
  refine yields_bind_of_expression annotated fun first firstGood => ?_
  refine yields_bind_of_expression ?_ fun more moreGood => yields_pure (.seq firstGood moreGood)
  exact yields_collect_while annotated

theorem yields_defaultValue
    (inner : ReadsExpressions self)
    (mode : Mode) :
    Yields IsExpression (defaultValue self mode) := by
  exact yields_bind fun _ => yields_ite (inner.expression mode) (yields_pure .empty)

theorem yields_parameter
    (inner : ReadsExpressions self)
    (mode : Mode)
    (annotated : Bool) :
    Yields IsExpression (parameter self mode annotated) := by
  refine yields_bind fun first => ?_
  extract_lets none annotationOf
  have noneGood (unused : Unit) : Yields IsExpression (none unused) := yields_pure .empty
  have annotationGood : Yields IsExpression annotationOf := by
    have written := yields_restrictedAnnotation inner mode
    exact yields_ite (yields_bind fun _ => yields_ite written (noneGood ())) (noneGood ())
  clear_value annotationOf
  have starred := yields_starredParameter inner mode
  split
  · refine yields_bind fun _ => yields_bind fun next => ?_
    split
    · refine yields_bind_of_expression starred fun binder binderGood => ?_
      exact yields_bind_of_expression annotationGood fun written writtenGood =>
        yields_pure (.parameter binderGood writtenGood)
    · exact yields_pure (.parameter .empty .empty)
  · refine yields_bind fun _ => yields_bind_of_expression starred fun binder binderGood => ?_
    exact yields_bind_of_expression annotationGood fun written writtenGood =>
      yields_pure (.parameter binderGood writtenGood)
  · exact yields_bind fun _ => yields_pure (.parameter .empty .empty)
  · refine yields_bind_of_expression (inner.target mode) fun binder binderGood => ?_
    split
    · exact yields_bind_of_expression (yields_defaultValue inner mode) fun value valueGood =>
        yields_pure (.parameter binderGood valueGood)
    · exact yields_reject first
  · refine yields_bind fun _ => ?_
    refine yields_bind_of_expression annotationGood fun written writtenGood => ?_
    exact yields_bind_of_expression (yields_defaultValue inner mode) fun value valueGood =>
      yields_pure (.parameter (.name _) (.seq writtenGood valueGood))
  · exact yields_reject first

theorem yields_parameters
    (inner : ReadsExpressions self)
    (mode : Mode)
    (annotated : Bool) :
    Yields IsExpression (parameters self mode annotated) := by
  have next := yields_parameter inner mode annotated
  refine yields_bind_of_expression next fun first firstGood => ?_
  refine yields_bind_of_expression ?_ fun more moreGood => yields_pure (.seq firstGood moreGood)
  refine yields_collect_expressions (yields_bind fun comma => yields_ite ?_ yields_pure_none)
  exact yields_bind fun _ => yields_ite (yields_some next) yields_pure_none

theorem yields_lambdaBody
    (inner : ReadsExpressions self)
    (mode : Mode) :
    Yields IsExpression (lambdaBody self mode) := by
  refine yields_bind fun next => ?_
  extract_lets finish
  have finishGood (bound : Tree) (boundGood : IsExpression bound) :
      Yields IsExpression (finish bound) := by
    refine yields_bind fun _ => ?_
    exact yields_bind_of_expression (inner.expression mode) fun body bodyGood =>
      yields_pure (.lambda boundGood bodyGood)
  clear_value finish
  refine yields_ite ?_ ?_
  · exact yields_bind_of_expression (yields_parameters inner _ _) finishGood
  · exact yields_bind_of_expression (yields_pure .empty) finishGood

/-! ## Whole expressions -/

theorem yields_headOperand
    (inner : ReadsExpressions self)
    (mode : Mode) :
    Yields IsExpression (headOperand self mode) := by
  refine yields_bind fun first => ?_
  split
  · exact yields_bind fun _ => inner.expression mode
  · exact yields_bind fun _ => yields_lambdaBody inner mode
  · refine yields_ite (yields_bind fun _ => yields_bind fun _ => ?_) (yields_operand inner mode)
    exact yields_bind_of_expression (inner.expression mode) fun value valueGood =>
      yields_pure (.seq (.name _) valueGood)
  · exact yields_operand inner mode

theorem yields_continuation
    (inner : ReadsExpressions self)
    (mode : Mode) :
    Yields OffersExpression (continuation self mode) := by
  have operand := yields_some (yields_operand inner mode)
  have expression := yields_some (inner.expression mode)
  refine yields_bind fun next => ?_
  split
  · exact yields_ite (yields_bind fun _ => operand) yields_pure_none
  · exact yields_bind fun _ => operand
  · exact yields_bind fun _ => yields_bind fun _ => operand
  · exact yields_bind fun _ => yields_bind fun _ => operand
  · exact yields_bind fun _ => expression
  · exact yields_bind fun _ => expression
  · exact yields_bind fun _ => expression
  · refine yields_ite (yields_bind fun _ => ?_) yields_pure_none
    refine yields_bind_of_expression (inner.expression _) fun condition conditionGood => ?_
    refine yields_bind fun _ => ?_
    exact yields_bind_of_expression (inner.expression mode) fun alternative alternativeGood =>
      yields_pure_some (.seq conditionGood alternativeGood)
  · exact yields_pure_none

theorem yields_expression
    (inner : ReadsExpressions self)
    (mode : Mode) :
    Yields IsExpression (expression self mode) := by
  refine yields_bind_of_expression (yields_headOperand inner mode) fun first firstGood => ?_
  refine yields_bind_of_expression ?_ fun more moreGood => yields_pure (.seq firstGood moreGood)
  exact yields_collect_expressions (yields_continuation inner mode)

/-! ## Single targets and replacement fields -/

theorem yields_targetsBody
    (inner : ReadsExpressions self)
    (mode : Mode)
    (closing : String) :
    Yields IsExpression (targetsBody self mode closing) := by
  have elements := yields_moreElements mode [] (inner.target mode)
  refine yields_bind fun next => yields_ite ?_ ?_
  · exact yields_bind fun _ => yields_pure (.pattern .empty)
  · refine yields_bind_of_expression (inner.target mode) fun first firstGood => ?_
    refine yields_bind_of_expression elements fun more moreGood => ?_
    exact yields_bind fun _ => yields_pure (.pattern (.seq firstGood moreGood))

theorem yields_assignable
    (inner : ReadsExpressions self)
    (mode : Mode) :
    Yields IsExpression (assignable self mode) := by
  refine yields_bind fun first => ?_
  extract_lets rest
  have restGood (unused : Unit) : Yields IsExpression (rest unused) := by
    refine yields_bind_of_expression (yields_atom inner mode) fun head headGood => ?_
    refine yields_bind_of_first (yields_trailers inner mode headGood) ?_
    rintro ⟨tree, accessed⟩ treeGood
    dsimp only
    split
    · exact yields_pure treeGood
    · exact yields_pure treeGood
    · exact yields_pure treeGood
    · exact yields_reject first
  clear_value rest
  exact yields_ite (yields_bind fun _ => restGood ()) (restGood ())

theorem yields_bracketTarget
    (inner : ReadsExpressions self)
    (mode : Mode)
    (opening : Lexeme)
    (closing : String) :
    Yields IsExpression (bracketTarget self mode opening closing) := by
  refine yields_bind fun _ => ?_
  refine yields_bind_of_expression (yields_targetsBody inner _ closing) fun tree treeGood => ?_
  exact yields_bind fun next => yields_ite (yields_reject next) (yields_pure treeGood)

theorem yields_target
    (inner : ReadsExpressions self)
    (mode : Mode) :
    Yields IsExpression (target self mode) := by
  have plain := yields_assignable inner mode
  refine yields_bind fun first => ?_
  split
  · refine yields_bind fun _ => ?_
    exact yields_bind_of_expression plain fun tree treeGood => yields_pure (.pattern treeGood)
  · exact yields_orElse (yields_bracketTarget inner mode first ")") plain
  · exact yields_orElse (yields_bracketTarget inner mode first "]") plain
  · exact plain

theorem yields_formatSpecification
    (inner : ReadsExpressions self) :
    Yields IsExpression (formatSpecification self) := by
  refine yields_collect_expressions (yields_bind fun cursor => ?_)
  dsimp only
  split
  · exact yields_bind fun _ => yields_some inner.field
  · exact yields_bind fun _ => yields_pure_none
  · exact yields_failAt cursor.offset

theorem yields_replacementField
    (inner : ReadsExpressions self) :
    Yields IsExpression (replacementField self) := by
  refine yields_bind_of_expression (yields_expressionsOrYield inner _) fun value valueGood => ?_
  refine yields_bind fun _ => yields_bind fun next => ?_
  refine yields_bind fun _ => yields_bind fun next => ?_
  split
  · refine yields_bind fun _ => ?_
    exact yields_bind_of_expression (yields_formatSpecification inner) fun more moreGood =>
      yields_pure (.seq valueGood moreGood)
  · exact yields_bind fun _ => yields_pure valueGood
  · exact yields_reject next

/-! ## Patterns -/

theorem yields_casePatternsBody
    (mode : Mode)
    (closing : String)
    {part : Parser Tree}
    (partYields : Yields IsExpression part) :
    Yields IsExpression (casePatternsBody mode closing part) := by
  refine yields_bind fun next => yields_ite ?_ ?_
  · exact yields_bind fun _ => yields_pure .empty
  · refine yields_bind_of_expression partYields fun first firstGood => ?_
    refine yields_bind_of_expression (yields_collect_expressions (yields_bind fun _ => ?_)) ?_
    · refine yields_ite (yields_bind fun next => ?_) yields_pure_none
      exact yields_ite yields_pure_none (yields_some partYields)
    · exact fun more moreGood => yields_bind fun _ => yields_pure (.seq firstGood moreGood)

theorem yields_starredCapture (mode : Mode) : Yields IsExpression (starredCapture mode) := by
  refine yields_bind fun name => yields_pure ?_
  split
  · exact .empty
  · exact .name name

theorem yields_namedPattern
    (inner : ReadsExpressions self)
    (mode : Mode)
    (first : String) :
    Yields IsExpression (namedPattern self mode first) := by
  refine yields_bind_of_expression yields_collect_names fun more moreGood => ?_
  extract_lets inside
  have finishGood (parts : Tree) (partsGood : IsExpression parts) :
      Yields IsExpression (pure (.seq (.name first) (.seq more parts))) :=
    yields_pure (.seq (.name first) (.seq moreGood partsGood))
  refine yields_bind fun called => yields_ite ?_ ?_
  · have parts := yields_casePatternsBody inside ")" (inner.casePattern inside)
    exact yields_bind_of_expression parts finishGood
  · exact yields_bind_of_expression (yields_pure .empty) finishGood

theorem yields_entryPattern
    (inner : ReadsExpressions self)
    (mode : Mode) :
    Yields IsExpression (entryPattern self mode) := by
  refine yields_bind fun first => yields_ite ?_ ?_
  · exact yields_bind fun _ => yields_starredCapture mode
  · refine yields_bind_of_expression (inner.casePattern _) fun key keyGood => ?_
    refine yields_bind fun _ => ?_
    exact yields_bind_of_expression (inner.casePattern mode) fun value valueGood =>
      yields_pure (.seq keyGood valueGood)

theorem yields_closedPattern
    (inner : ReadsExpressions self)
    (mode : Mode)
    {entry : Mode → Parser Tree}
    (entryYields : ∀ mode, Yields IsExpression (entry mode)) :
    Yields IsExpression (closedPattern self mode entry) := by
  refine yields_bind fun first => ?_
  extract_lets inside
  split
  · refine yields_bind fun _ => yields_ite (yields_pure .empty) ?_
    exact yields_namedPattern inner mode _
  · exact yields_bind fun _ => yields_bind fun _ => yields_pure .empty
  · refine yields_bind fun _ => ?_
    refine yields_bind_of_expression (yields_stringBody inner _) fun head headGood => ?_
    exact yields_bind_of_expression (yields_moreStrings inner mode) fun more moreGood =>
      yields_pure (.seq headGood moreGood)
  · exact yields_bind fun _ => yields_bind fun _ => yields_bind fun _ => yields_pure .empty
  · exact yields_bind fun _ => yields_starredCapture mode
  · exact yields_bind fun _ => yields_starredCapture mode
  · exact yields_bind fun _ => yields_casePatternsBody inside "]" (inner.casePattern inside)
  · exact yields_bind fun _ => yields_casePatternsBody inside ")" (inner.casePattern inside)
  · exact yields_bind fun _ => yields_casePatternsBody inside "\x7d" (entryYields inside)
  · exact yields_reject first

theorem yields_casePattern
    (inner : ReadsExpressions self)
    (mode : Mode) :
    Yields IsExpression (casePattern self mode) := by
  have closed := yields_closedPattern inner mode (yields_entryPattern inner)
  refine yields_bind fun first => ?_
  extract_lets pattern finish
  have finishGood (label : Tree) (labelGood : IsExpression label) :
      Yields IsExpression (finish label) := by
    refine yields_bind_of_expression closed fun head headGood => ?_
    refine yields_bind_of_expression (yields_collect_while closed) fun others othersGood => ?_
    exact yields_bind_of_expression yields_collect_names fun names namesGood =>
      yields_pure (.seq labelGood (.seq headGood (.seq othersGood namesGood)))
  clear_value pattern finish
  have unlabelled := yields_bind_of_expression (yields_pure .empty) finishGood
  split
  · refine yields_ite (yields_bind fun _ => yields_bind fun _ => ?_) unlabelled
    exact yields_bind_of_expression (yields_pure (.name _)) finishGood
  · exact unlabelled

/-! ## All depths -/

theorem readsExpressions_grammar (depth : Nat) : ReadsExpressions (grammar depth) := by
  induction depth with
  | zero =>
      have fails (goal : Goal) : Yields IsExpression (grammar 0 goal) := by
        rintro cursor result after succeeded
        cases succeeded
      exact ⟨fun _ => fails _, fun _ => fails _, fails _, fun _ => fails _⟩
  | succ depth inner =>
      exact ⟨yields_expression inner, yields_target inner, yields_replacementField inner,
        yields_casePattern inner⟩

end Inliner.Syntax
