import Inliner.Proofs.Selection.DependencyClosure
import Inliner.Proofs.Source.ModulePaths
import Inliner.Proofs.Syntax.Bindings

/-!
# Bound names of statements

A statement of a program is noted to bind what its outermost construct binds: the first target of
an assignment, the name of a definition, what an import binds.  The later targets of a chained
assignment and the names in blocks are not noted, so a selection reports them as missing.
-/

namespace Inliner

/-! ## Identifiers at the start of a text -/

namespace Text

theorem head?_splitAt (separator : Char) (text : Text) :
    (splitAt separator text).head? = some (text.takeWhile (· ≠ separator)) := by
  induction text with
  | nil => rfl
  | cons first rest inductionHypothesis =>
      unfold splitAt
      split
      next isSeparator => simp [isSeparator]
      next notSeparator =>
        rw [List.takeWhile_cons_of_pos (by simpa using notSeparator)]
        cases cut : splitAt separator rest with
        | nil => exact absurd cut (splitAt_ne_nil rest)
        | cons piece pieces =>
            rw [cut] at inductionHypothesis
            obtain rfl := Option.some.inj inductionHypothesis
            rfl

/-- White space after a text is no part of the identifier at its start. -/
theorem takeWhile_trimEnd (text : Text) :
    (trimEnd text).takeWhile continuesIdentifier = text.takeWhile continuesIdentifier := by
  have parts : trimEnd text ++ (text.reverse.takeWhile isSpace).reverse = text := by
    rw [trimEnd, ← List.reverse_append, List.takeWhile_append_dropWhile, List.reverse_reverse]
  have blank : (text.reverse.takeWhile isSpace).reverse.takeWhile continuesIdentifier = [] := by
    cases spaces : (text.reverse.takeWhile isSpace).reverse with
    | nil => rfl
    | cons first rest =>
        apply List.takeWhile_cons_of_neg
        intro continues
        have isSpace := List.mem_takeWhile_imp (List.mem_reverse.mp (spaces ▸ List.mem_cons_self))
        rw [(of_continuesIdentifier continues).1] at isSpace
        cases isSpace
  conv_rhs => rw [← parts, List.takeWhile_append, blank, List.append_nil]
  split
  next whole => exact (List.takeWhile_prefix _).eq_of_length whole
  next => rfl

end Text

/-- The identifier at the start of a name. -/
def leadingIdentifier (name : String) : String :=
  String.ofList (name.toList.takeWhile Text.continuesIdentifier)

namespace Syntax

open Inliner.Syntax.Parser
open Inliner.Syntax.Tree (IsAssignment IsClauses IsDefinition IsExpression)

/-- The first segment of a text starts with the identifier that the text starts with. -/
theorem StartsWith.head?_splitSegments
    {text : Text}
    {identifier : String}
    (startsWith : StartsWith text identifier) :
    ∃ segment,
      (ModulePath.splitSegments text).head? = some segment ∧
        leadingIdentifier segment = identifier := by
  obtain ⟨⟨first, isFirst, starts⟩, continues⟩ := startsWith
  have continuesFirst := Text.continuesIdentifier_of_starts starts
  obtain ⟨visible, notDot⟩ := Text.of_continuesIdentifier continuesFirst
  obtain ⟨rest, rfl⟩ : ∃ rest, text = first :: rest := List.head?_eq_some_iff.mp isFirst
  cases cut : Text.splitAt '.' (first :: rest) with
  | nil => exact absurd cut (Text.splitAt_ne_nil _)
  | cons piece pieces =>
      have isPiece : piece = (first :: rest).takeWhile (· ≠ '.') := by
        have isHead := Text.head?_splitAt '.' (first :: rest)
        rw [cut] at isHead
        exact Option.some.inj isHead
      have trimmed : Text.trim piece = Text.trimEnd piece := by
        rw [Text.trim, isPiece, List.takeWhile_cons_of_pos (by simpa using notDot),
          List.dropWhile_cons_of_neg (by simp [visible])]
      have leading : (Text.trim piece).takeWhile Text.continuesIdentifier = identifier.toList := by
        rw [trimmed, Text.takeWhile_trimEnd, isPiece, List.takeWhile_takeWhile, ← continues]
        congr 1
        funext character
        have notDot : Text.continuesIdentifier character = true → character ≠ '.' :=
          fun continues => (Text.of_continuesIdentifier continues).2
        grind
      have nonempty : (Text.trim piece).isEmpty = false := by
        rw [← continues, List.takeWhile_cons_of_pos continuesFirst] at leading
        cases isTrimmed : Text.trim piece with
        | nil => simp [isTrimmed] at leading
        | cons _ _ => rfl
      refine ⟨String.ofList (Text.trim piece), ?_, ?_⟩
      · simp [ModulePath.splitSegments, cut, nonempty]
      · rw [leadingIdentifier, String.toList_ofList, leading, String.ofList_toList]

namespace ImportItem.IsNamed

variable {item : ImportItem}

theorem leadingIdentifier_newName
    {newName : String}
    (isNamed : item.IsNamed)
    (renamed : item.newName = some newName) :
    leadingIdentifier newName = newName := by
  rw [leadingIdentifier, isNamed.newName newName renamed, String.ofList_toList]

theorem leadingIdentifier_boundName (isNamed : item.IsNamed) :
    leadingIdentifier item.imported.boundName = item.identifier := by
  rw [ImportedName.boundName, ImportItem.imported, ImportItem.identifier]
  cases renamed : item.newName with
  | some newName => exact isNamed.leadingIdentifier_newName renamed
  | none =>
      rw [Option.getD_none, Option.getD_none, leadingIdentifier, String.toList_ofList,
        isNamed.startsWith.continues, String.ofList_toList]

theorem map_boundNames_clause (isNamed : item.IsNamed) :
    item.clause.boundNames.map leadingIdentifier = [item.identifier] := by
  rw [ImportClause.boundNames, ImportItem.clause, ImportItem.identifier]
  cases renamed : item.newName with
  | some newName => exact congrArg (fun name => [name]) (isNamed.leadingIdentifier_newName renamed)
  | none =>
      obtain ⟨segment, isHead, leading⟩ := isNamed.startsWith.head?_splitSegments
      simp [ModulePath.absolute, ModulePath.relative, ModulePath.head?, isHead, leading]

end ImportItem.IsNamed

/-! ## Forms and trees -/

/-- The form tells what the tree of a statement is. -/
def Form.Describes (form : Form) (tree : Tree) : Prop :=
  match form with
  | .definition name => IsDefinition name tree
  | .importing _ => ∃ identifiers, tree = .importing (form.binds.map leadingIdentifier) identifiers
  | .future _ => True
  | .assignment target => IsAssignment target tree
  | .branch _ | .other => IsClauses tree

/-- The result is a form and a tree that it describes. -/
def Describes (result : Form × Tree) : Prop :=
  result.1.Describes result.2

namespace Form.Describes

variable {form : Form} {tree : Tree}

theorem executedNames_eq
    (describes : form.Describes tree)
    (notFuture : ∀ names, form ≠ .future names) :
    tree.executedNames = tree.outermostNames ++ tree.laterNames ++ tree.blockNames := by
  cases form with
  | definition name => exact IsDefinition.executedNames_eq describes
  | importing clauses =>
      obtain ⟨identifiers, rfl⟩ := describes
      simp [Tree.executedNames, Tree.outermostNames, Tree.laterNames, Tree.blockNames]
  | assignment target => exact IsAssignment.executedNames_eq describes
  | future names => exact absurd rfl (notFuture names)
  | branch condition => exact IsClauses.executedNames_eq describes
  | other => exact IsClauses.executedNames_eq describes

theorem outermostNames_eq
    (describes : form.Describes tree)
    (notFuture : ∀ names, form ≠ .future names)
    (notImport : form.kind ≠ .importing) :
    tree.outermostNames = form.binds := by
  cases form with
  | definition name => exact IsDefinition.outermostNames_eq describes
  | importing clauses => exact absurd rfl notImport
  | assignment target => exact IsAssignment.outermostNames_eq describes
  | future names => exact absurd rfl (notFuture names)
  | branch condition => exact IsClauses.outermostNames_eq_nil describes
  | other => exact IsClauses.outermostNames_eq_nil describes

theorem outermostNames_of_importing
    (describes : form.Describes tree)
    (isImport : form.kind = .importing) :
    tree.outermostNames = form.binds.map leadingIdentifier := by
  cases form with
  | importing clauses =>
      obtain ⟨identifiers, rfl⟩ := describes
      rfl
  | branch condition =>
      rw [Form.kind] at isImport
      split at isImport <;> cases isImport
  | _ => cases isImport

end Form.Describes

/-! ## Forms as they are read -/

variable {self : Grammar}

theorem describes_of_clauses
    {parser : Parser Tree}
    (yields : Yields IsClauses parser) :
    Yields Describes (parser >>= fun tree => pure (.other, tree)) :=
  yields_bind_of_clauses yields fun _ treeGood => yields_pure treeGood

theorem describes_of_expression
    {parser : Parser Tree}
    (yields : Yields IsExpression parser) :
    Yields Describes (parser >>= fun tree => pure (.other, tree)) :=
  yields_bind_of_expression yields fun _ treeGood => yields_pure (.expression treeGood)

theorem map_boundNames_clauses
    {items : List ImportItem}
    (allNamed : ∀ item ∈ items, item.IsNamed) :
    ((items.map (·.clause)).flatMap ImportClause.boundNames).map leadingIdentifier =
      items.map (·.identifier) := by
  induction items with
  | nil => rfl
  | cons item items inductionHypothesis =>
      obtain ⟨isNamed, othersNamed⟩ := List.forall_mem_cons.mp allNamed
      simp only [List.map_cons, List.flatMap_cons, List.map_append, isNamed.map_boundNames_clause,
        inductionHypothesis othersNamed, List.singleton_append]

theorem describes_importStatement : Yields Describes importStatement := by
  refine yields_bind_of_first (yields_forall_importItems .statement) fun items allNamed => ?_
  apply yields_pure
  refine ⟨itemsTree items, ?_⟩
  rw [Form.binds, map_boundNames_clauses allNamed]

theorem yields_importList_isNamed :
    Yields (fun items => ∀ item ∈ items, item.IsNamed) importList := by
  refine yields_bind fun parenthesis => ?_
  split
  · refine yields_bind_of_first (yields_forall_importItems _) fun items allNamed => ?_
    exact yields_bind fun _ => yields_pure allNamed
  · exact yields_forall_importItems .statement

/-- A clause that is taken from a token on is described by the identifiers that it binds. -/
theorem describes_textFrom
    {start : Lexeme}
    {path : ModulePath}
    {imported : ImportedNames}
    {identifiers : List String}
    (tree : Tree)
    (same : ∀ taken,
      (Form.importing [⟨path, imported, taken⟩]).binds.map leadingIdentifier = identifiers) :
    Yields Describes (textFrom start >>= fun taken =>
      pure (.importing [⟨path, imported, taken⟩], .importing identifiers tree)) := by
  refine yields_bind fun taken => yields_pure ⟨tree, ?_⟩
  rw [same taken]

theorem describes_fromStatement : Yields Describes fromStatement := by
  refine yields_bind fun start => yields_bind fun level => yields_bind fun next => ?_
  extract_lets names
  have namesGood : ∀ path, Yields Describes (names path) := by
    rintro ⟨path, pathTree⟩
    refine yields_bind fun _ => yields_bind fun next => ?_
    dsimp only
    split
    · exact yields_bind fun _ => describes_textFrom pathTree fun taken => rfl
    · refine yields_bind_of_first yields_importList_isNamed fun items allNamed => ?_
      refine describes_textFrom _ fun taken => ?_
      have same : ∀ item ∈ items, leadingIdentifier item.imported.boundName = item.identifier :=
        fun item isItem => (allNamed item isItem).leadingIdentifier_boundName
      simpa [Form.binds, ImportClause.boundNames] using same
  clear_value names
  refine yields_ite (yields_bind fun _ => namesGood _) ?_
  exact yields_bind fun _ => yields_bind fun _ => yields_bind fun _ => namesGood _

theorem describes_fromOrFutureStatement : Yields Describes fromOrFutureStatement := by
  refine yields_bind fun future => ?_
  split
  · exact yields_bind fun _ => yields_bind fun items => yields_pure trivial
  · exact describes_fromStatement

theorem describes_expressionStatement (inner : ReadsStatements self) :
    Yields Describes (expressionStatement self) := by
  have reading := inner.toReadsExpressions
  refine yields_bind fun first => yields_ite (yields_bind fun _ => ?_) (yields_orElse ?_ ?_)
  · exact describes_of_expression (yields_yieldArgument reading .statement)
  · refine yields_bind_of_first (yields_assignment inner) fun result isAssignment => ?_
    exact yields_pure isAssignment.2
  · have values := yields_wholeStatement (yields_expressions reading .statement)
    exact describes_of_expression values

theorem yields_optionalExpressions
    (inner : ReadsExpressions self)
    (stops : List String) :
    Yields IsExpression (optionalExpressions self stops) := by
  have values := yields_expressionsUntil inner .statement stops
  refine yields_bind fun next => ?_
  split
  · exact yields_ite (yields_pure .empty) values
  · exact yields_ite values (yields_pure .empty)

theorem describes_printStatement (inner : ReadsStatements self) :
    Yields Describes (printStatement self) := by
  have values := describes_of_expression (yields_expressions inner.toReadsExpressions .statement)
  exact yields_bind fun redirected => yields_ite values values

theorem describes_typeAlias (inner : ReadsStatements self) :
    Yields Describes (typeAlias self) := by
  have annotated := yields_restrictedAnnotation inner.toReadsExpressions
  refine yields_bind_of_expression (annotated .header) fun left leftGood => ?_
  refine yields_bind fun _ => ?_
  exact yields_bind_of_expression (annotated .statement) fun right rightGood =>
    yields_pure (.expression (.seq leftGood rightGood))

theorem describes_raiseStatement (inner : ReadsStatements self) :
    Yields Describes (raiseStatement self) := by
  have exceptions := yields_optionalExpressions inner.toReadsExpressions ["from"]
  refine yields_bind_of_expression exceptions fun raised raisedGood => yields_bind fun chained => ?_
  have finishGood (cause : Tree) (causeGood : IsExpression cause) :
      Yields Describes (pure (.other, .seq raised cause)) :=
    yields_pure (.expression (.seq raisedGood causeGood))
  refine yields_ite ?_ ?_
  · exact yields_bind_of_expression (inner.expression .statement) finishGood
  · exact yields_bind_of_expression (yields_pure .empty) finishGood

theorem describes_nameList : Yields Describes nameList := by
  refine yields_bind fun first => ?_
  exact yields_bind_of_expression yields_collect_names fun more moreGood =>
    yields_pure (.expression (.seq (.name first) moreGood))

theorem describes_execStatement (inner : ReadsStatements self) :
    Yields Describes (execStatement self) := by
  have reading := inner.toReadsExpressions
  refine yields_bind fun first => ?_
  extract_lets finish
  have finishGood (code : Tree) (codeGood : IsExpression code) :
      Yields Describes (finish code) := by
    refine yields_bind fun inside => ?_
    have within (namespaces : Tree) (namespacesGood : IsExpression namespaces) :
        Yields Describes (pure (.other, .seq code namespaces)) :=
      yields_pure (.expression (.seq codeGood namespacesGood))
    refine yields_ite ?_ ?_
    · exact yields_bind_of_expression (yields_strictExpressions reading .statement) within
    · exact yields_bind_of_expression (yields_pure .empty) within
  clear_value finish
  split
  · exact yields_bind fun _ => yields_bind_of_expression (yields_stringBody reading _) finishGood
  · exact yields_bind fun name => yields_bind_of_expression (yields_pure (.name name)) finishGood

theorem describes_simpleStatement (inner : ReadsStatements self) :
    Yields Describes (simpleStatement self) := by
  have reading := inner.toReadsExpressions
  have expression := describes_expressionStatement inner
  have wholeExpression := yields_wholeStatement expression
  have empty : Yields Describes (pure (.other, .empty)) := yields_pure (.expression .empty)
  refine yields_bind fun first => ?_
  split
  · exact yields_bind fun _ => describes_importStatement
  · exact yields_bind fun _ => describes_fromOrFutureStatement
  · have printing : Yields Describes (accept first >>= fun _ => printStatement self) :=
      yields_bind fun _ => describes_printStatement inner
    exact yields_ite printing (yields_orElse wholeExpression printing)
  · refine yields_orElse wholeExpression (yields_bind fun _ => ?_)
    exact describes_execStatement inner
  · refine yields_orElse (yields_wholeStatement (yields_bind fun _ => ?_)) expression
    exact describes_typeAlias inner
  · exact yields_bind fun _ => describes_of_expression (yields_strictExpressions reading .statement)
  · exact yields_bind fun _ => describes_of_expression (yields_optionalExpressions reading [])
  · exact yields_bind fun _ => describes_of_expression (yields_expressions reading .statement)
  · exact yields_bind fun _ => describes_raiseStatement inner
  · exact yields_bind fun _ => describes_nameList
  · exact yields_bind fun _ => describes_nameList
  · exact yields_bind fun _ => empty
  · exact yields_bind fun _ => empty
  · exact yields_bind fun _ => empty
  · exact expression

theorem describes_ifStatement (inner : ReadsStatements self) :
    Yields Describes (ifStatement self) := by
  refine yields_bind fun start => ?_
  refine yields_bind_of_expression (inner.expression .header) fun condition conditionGood => ?_
  refine yields_bind fun text => ?_
  refine yields_bind_of_clauses (yields_colonBlock inner) fun consequence consequenceGood => ?_
  refine yields_bind_of_clauses (yields_collect_clauses ?_) fun alternatives alternativesGood => ?_
  · refine yields_bind fun expected => yields_bind fun found => ?_
    refine yields_ite ?_ yields_pure_no_clauses
    refine yields_bind_of_expression (inner.expression .header) fun condition conditionGood => ?_
    exact yields_bind_of_clauses (yields_colonBlock inner) fun body bodyGood =>
      yields_pure_some_clauses (.seq (.expression conditionGood) bodyGood)
  · have last := yields_plainClause? inner "else"
    refine yields_bind_of_clauses last fun otherwise otherwiseGood => yields_pure ?_
    exact .seq (.expression conditionGood)
      (.seq consequenceGood (.seq alternativesGood otherwiseGood))

theorem describes_of_compoundStatement?
    (inner : ReadsStatements self)
    {first : Lexeme}
    {parser : Parser (Form × Tree)}
    (compound : compoundStatement? self first = some parser) :
    Yields Describes parser := by
  unfold compoundStatement? at compound
  extract_lets other definition at compound
  have otherGood {parser : Parser Tree} (yields : Yields IsClauses parser) :
      Yields Describes (other parser) :=
    yields_bind fun _ => describes_of_clauses yields
  have definitionGood {parser : Parser (String × Tree)} (yields : Yields Defines parser) :
      Yields Describes (definition parser) :=
    yields_bind_of_first yields fun _ defines => yields_pure defines
  clear_value other definition
  split at compound
  · obtain rfl := Option.some.inj compound
    exact definitionGood yields_decoratedDefinition
  · obtain rfl := Option.some.inj compound
    exact yields_bind fun _ => describes_ifStatement inner
  · obtain rfl := Option.some.inj compound
    exact otherGood (yields_forStatement inner)
  · obtain rfl := Option.some.inj compound
    exact otherGood (yields_whileStatement inner)
  · obtain rfl := Option.some.inj compound
    exact otherGood (yields_tryStatement inner)
  · obtain rfl := Option.some.inj compound
    exact otherGood (yields_withStatement inner)
  · obtain rfl := Option.some.inj compound
    exact definitionGood (yields_bind fun _ => yields_functionDefinition)
  · obtain rfl := Option.some.inj compound
    exact definitionGood (yields_bind fun _ => yields_classDefinition)
  · split at compound
    · obtain rfl := Option.some.inj compound
      exact definitionGood (yields_bind fun _ => yields_functionDefinition)
    · obtain rfl := Option.some.inj compound
      exact yields_bind fun _ => describes_of_clauses (yields_forStatement inner)
    · obtain rfl := Option.some.inj compound
      exact yields_bind fun _ => describes_of_clauses (yields_withStatement inner)
    · cases compound
  · cases compound

theorem describes_statement
    (depth : Nat)
    (first : Lexeme) :
    Yields (fun nodes => ∀ node ∈ nodes, node.form.Describes node.tree)
      (statement (grammar depth) first) := by
  have inner := readsStatements_grammar depth
  refine yields_forall_statement (describes_simpleStatement inner) ?_ ?_
  · exact fun parser isCompound => describes_of_compoundStatement? inner isCompound
  · exact yields_matchStatement inner

theorem describes_of_mem_withJoins
    {text : Text}
    {nodes : List Node}
    {node : Node}
    (parsed : parseStatements text = .ok nodes)
    (member : node ∈ withJoins text 0 nodes) :
    node.form.Describes node.tree := by
  refine of_mem_withJoins ?_ (forall_of_statementsFrom (describes_statement _) parsed) member
  intro span join joined
  obtain ⟨_, _, rfl⟩ := List.mem_map.mp joined
  exact .expression .empty

end Syntax

/-! ## Sources -/

namespace ParsedSource

open Syntax

variable {text : Text} {source : ParsedSource}

theorem mem_missing_select_iff
    (parsed : parse text = .ok source)
    (names : List String)
    (policy : SymbolPolicy)
    (name : String) :
    name ∈ (source.select names policy).missing ↔
      name ∈ names ∧ ∀ statement ∈ source.statements, name ∉ statement.binds := by
  have missing : (source.select names policy).missing = source.missing names := rfl
  rw [missing, missing_eq parsed, List.mem_filter, decide_eq_true_eq, boundNames]
  simp only [List.mem_flatMap, not_exists, not_and]

/-- What a statement is noted to bind, beside what executing it binds. -/
structure NotesOutermost (tree : Tree) (statement : Statement) : Prop where
  executed : tree.executedNames = tree.outermostNames ++ tree.laterNames ++ tree.blockNames
  noted : statement.kind ≠ .importing → statement.binds = tree.outermostNames
  imported :
    statement.kind = .importing → statement.binds.map leadingIdentifier = tree.outermostNames
  complete_iff :
    tree.executedNames ⊆ statement.binds ↔
      tree.laterNames ⊆ statement.binds ∧
        tree.blockNames ⊆ statement.binds ∧
          (statement.kind = .importing →
            statement.binds.map leadingIdentifier ⊆ statement.binds)

theorem notesOutermost_of_describes
    {node : Node}
    (describes : node.form.Describes node.tree)
    (notFuture : ∀ names, (node.statement text).kind ≠ .future names) :
    NotesOutermost node.tree (node.statement text) := by
  have noFuture : ∀ names, node.form ≠ .future names := by
    intro names isFuture
    exact notFuture names (by simp [Node.statement, isFuture, Form.kind])
  have executed := describes.executedNames_eq noFuture
  have noted (notImport : (node.statement text).kind ≠ .importing) :
      (node.statement text).binds = node.tree.outermostNames :=
    (describes.outermostNames_eq noFuture notImport).symm
  have imported (isImport : (node.statement text).kind = .importing) :
      (node.statement text).binds.map leadingIdentifier = node.tree.outermostNames :=
    (describes.outermostNames_of_importing isImport).symm
  refine ⟨executed, noted, imported, ?_⟩
  rw [executed, List.append_subset, List.append_subset]
  by_cases isImport : (node.statement text).kind = .importing
  · rw [imported isImport]
    tauto
  · rw [noted isImport]
    simp [isImport]

/-- A statement other than an import of language features is noted to bind the names of its
outermost construct: neither those of the later targets of a chained assignment nor those in its
blocks.  A selection reports as missing the names asked for that no statement is noted to bind. -/
theorem parse_binds_outermost (parsed : parse text = .ok source) :
    ∃ nodes,
      parseStatements text = .ok nodes ∧
        source.statements = (withJoins text 0 nodes).map (Node.statement text) ∧
          (∀ node ∈ withJoins text 0 nodes,
            (∀ names, (node.statement text).kind ≠ .future names) →
              NotesOutermost node.tree (node.statement text)) ∧
          ∀ names policy name,
            name ∈ (source.select names policy).missing ↔
              name ∈ names ∧ ∀ statement ∈ source.statements, name ∉ statement.binds := by
  have missing := mem_missing_select_iff parsed
  unfold parse at parsed
  split at parsed
  next nodes read =>
    obtain rfl := Except.ok.inj parsed
    refine ⟨nodes, read, rfl, ?_, missing⟩
    intro node member
    exact notesOutermost_of_describes (describes_of_mem_withJoins read member)
  next => cases parsed

/-- Imports, a decorated function, a chained assignment to a pattern and an assignment in a
block. -/
def bindingText : Text :=
  "import os.path, sys as s\n@wrap\ndef f(): pass\n(x, *y), z.w = v = 1\nif c:\n    n = 2\n".toList

theorem parse_bindingText_binds :
    ∃ source nodes,
      parse bindingText = .ok source ∧
        parseStatements bindingText = .ok nodes ∧
          (withJoins bindingText 0 nodes).map (·.tree.executedNames) =
            [["os", "s"], ["f"], ["x", "y", "v"], ["n"]] ∧
          source.statements.map (·.binds) = [["os", "s"], ["f"], ["x", "y"], []] ∧
            (∀ node ∈ withJoins bindingText 0 nodes,
              NotesOutermost node.tree (node.statement bindingText)) ∧
              "y" ∉ (source.select ["v", "y"] .exact).missing ∧
                "v" ∈ (source.select ["v", "y"] .exact).missing := by
  have facts : ∃ source nodes,
      parse bindingText = .ok source ∧
        parseStatements bindingText = .ok nodes ∧
          (withJoins bindingText 0 nodes).map (·.tree.executedNames) =
            [["os", "s"], ["f"], ["x", "y", "v"], ["n"]] ∧
          source.statements.map (·.binds) = [["os", "s"], ["f"], ["x", "y"], []] ∧
            source.statements.map (·.kind) = [.importing, .definition "f", .other, .other] :=
    ⟨(parse bindingText).toOption.getD default, (parseStatements bindingText).toOption.getD default,
      by decide +kernel⟩
  obtain ⟨source, nodes, parsed, read, executed, binds, kinds⟩ := facts
  obtain ⟨others, sameRead, statements, notes, missing⟩ := parse_binds_outermost parsed
  obtain rfl := Except.ok.inj (read.symm.trans sameRead)
  have unbound (name : String) :
      (∀ statement ∈ source.statements, name ∉ statement.binds) ↔
        ∀ names ∈ [["os", "s"], ["f"], ["x", "y"], []], name ∉ names := by
    rw [← binds, List.forall_mem_map]
  refine ⟨source, nodes, parsed, read, executed, binds, ?_, ?_, ?_⟩
  · intro node member
    refine notes node member fun names isFuture => ?_
    have kind : (node.statement bindingText).kind ∈ source.statements.map (·.kind) := by
      rw [statements]
      exact List.mem_map_of_mem (List.mem_map_of_mem member)
    rw [isFuture, kinds] at kind
    simp at kind
  · rw [missing, unbound]
    decide
  · rw [missing, unbound]
    decide

/-- The second target of a chained assignment is bound but not noted, and reported as missing. -/
theorem parse_chainedTargets_loses :
    ∃ source node,
      parse "a = b = 1\n".toList = .ok source ∧
        parseStatements "a = b = 1\n".toList = .ok [node] ∧
          node.tree.executedNames = ["a", "b"] ∧
            source.statements.map (·.binds) = [["a"]] ∧
              (source.select ["b"] .withDependencies).missing = ["b"] :=
  ⟨(parse "a = b = 1\n".toList).toOption.getD default,
    ((parseStatements "a = b = 1\n".toList).toOption.getD default).headD default, by decide +kernel⟩

end ParsedSource

end Inliner
