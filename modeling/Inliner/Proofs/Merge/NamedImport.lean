import Inliner.Proofs.Merge.TextLayout
import Inliner.Proofs.Merge.Failure
import Inliner.Proofs.Selection.KeptCode
import Inliner.Proofs.Source.Partition
import Inliner.Proofs.Text.Spacing

/-!
# A main file that is one import of names

A main file that consists of one import of names from a module is merged into what the names are
extracted to from the text of the module, apart from its blank lines.  Both select the same
segments.  The merge goes a longer way: it edits the segments, keeps account of what it has written,
puts empty lines between segments that do not follow one another, and brings the whole into normal
form.  This last step is the only one that shows: it takes a carriage return off the end of a line.
-/

namespace Inliner

open Syntax

/-! ## A file that is dropped altogether -/

theorem Span.Contiguous.le
    {lower upper : Nat}
    {spans : List Span}
    (contiguous : Contiguous lower upper spans) :
    lower ≤ upper ∧ ∀ span ∈ spans, span.stop ≤ upper := by
  induction spans generalizing lower with
  | nil => exact ⟨Nat.le_of_eq contiguous, fun _ member => nomatch member⟩
  | cons first rest inductionHypothesis =>
      obtain ⟨starts, ordered, further⟩ := contiguous
      obtain ⟨bound, others⟩ := inductionHypothesis further
      exact ⟨by omega, List.forall_mem_cons.mpr ⟨bound, others⟩⟩

namespace ParsedSource

variable {text : Text} {source : ParsedSource} {edit : Nat → Edit}

/-- A source with one statement, and nothing to see before and after it. -/
def HasOneStatement (source : ParsedSource) : Prop :=
  source.statements.length = 1 ∧
    ∀ statement ∈ source.statements,
      Text.isBlank (source.text.take statement.span.start) = true ∧
        Text.isBlank (source.text.drop statement.span.stop) = true

instance (source : ParsedSource) : Decidable source.HasOneStatement :=
  inferInstanceAs (Decidable (_ ∧ _))

theorem exists_node_of_hasOneStatement
    (parsed : parse text = .ok source)
    (alone : source.HasOneStatement) :
    ∃ node,
      source = ofNodes text [node] ∧
        Lays text [node] ∧
        Text.isBlank (text.take node.span.start) = true ∧
        Text.isBlank (text.drop node.span.stop) = true := by
  obtain ⟨nodes, rfl, lays⟩ := exists_nodes_of_parse parsed
  obtain ⟨one, blank⟩ := alone
  obtain ⟨node, rfl⟩ := List.length_eq_one_iff.mp ((List.length_map _).symm.trans one)
  exact ⟨node, rfl, lays, blank (node.statement text) List.mem_cons_self⟩

theorem shebang?_of_hasOneStatement
    (parsed : parse text = .ok source)
    (alone : source.HasOneStatement) :
    shebang? source.text = none := by
  obtain ⟨node, rfl, lays, before, _⟩ := exists_node_of_hasOneStatement parsed alone
  cases named : shebang? text with
  | none => exact named
  | some line =>
      -- The line would be a comment before the statement.
      have inComment := length_le_commentLength_of_shebang? named
      have afterComment : commentLength text ≤ node.span.start := by
        cases lays.spans with
        | cons lower _ _ _ => exact lower
      have starts : ['#', '!'] <+: line := (shebang?_eq_some_iff.mp named).2
      have inText : line <+: text.take node.span.start :=
        List.prefix_take_iff.mpr ⟨Text.prefix_of_shebang? named, inComment.trans afterComment⟩
      have mark : '#' ∈ text.take node.span.start :=
        (starts.trans inText).subset List.mem_cons_self
      exact absurd (List.all_eq_true.mp before '#' mark) (by decide)

theorem isBlank_renderBelow_of_drop
    (parsed : parse text = .ok source)
    (alone : source.HasOneStatement)
    (dropped : edit 0 = .drop) :
    Text.isBlank (source.renderBelow edit) = true := by
  rw [renderBelow, shebang?_of_hasOneStatement parsed alone]
  dsimp only
  obtain ⟨node, rfl, lays, before, after⟩ := exists_node_of_hasOneStatement parsed alone
  have inText : node.span.stop ≤ text.length :=
    (lays.spans.ordered_of_mem List.mem_cons_self).2
  have rendered :
      (ofNodes text [node]).render edit =
        text.take (text.rowStart (node.span.rows text).1) ++
          text.drop (text.rowStart ((node.span.rows text).2 + 1)) := by
    simp [render, renderSegment, editedSpans, segmentStatements, trailingText, ofNodes,
      Segment.ofSpans, Segment.pushAll, Segment.push, Segment.ofRows, Segment.stopOf, Span.slice,
      dropped, ← List.length_drop]
  rw [rendered, Text.isBlank_append, Bool.and_eq_true]
  constructor
  · refine Text.isBlank_of_subset ?_ before
    exact (List.take_prefix_take_left (Span.rowStart_rows_le node.span text)).subset
  · refine Text.isBlank_of_subset ?_ after
    exact (List.drop_suffix_drop_left text (Span.le_rowStart_rows node.span inText)).subset

/-! ## Segments that stay as they are -/

/-- The edits of statements outside a segment do not matter to it. -/
theorem renderAt_congr
    {other : Nat → Edit}
    {index : Nat}
    (same : ∀ number statement, source.HoldsStatement index number →
      source.statements[number]? = some statement → edit number = other number) :
    source.renderAt edit index = source.renderAt other index := by
  unfold renderAt
  cases found : source.segments[index]? with
  | none => rfl
  | some segment =>
      have sameSpans : source.editedSpans segment edit = source.editedSpans segment other := by
        refine List.map_congr_left fun ⟨statement, number⟩ member => ?_
        have entry : (statement, number) ∈ segment.statements.entries source.statements.zipIdx := by
          rw [Span.entries_zipIdx]
          exact member
        obtain ⟨position, notBefore, notAfter, isEntry⟩ := Span.mem_entries_iff.mp entry
        rw [List.getElem?_zipIdx, Option.map_eq_some_iff] at isEntry
        obtain ⟨_, isStatement, isPair⟩ := isEntry
        obtain ⟨rfl, rfl⟩ := Prod.mk.inj isPair
        have sameEdit := same position _ ⟨segment, found, notBefore, notAfter⟩ isStatement
        simp only [Nat.zero_add, sameEdit]
      dsimp only
      unfold renderSegment
      rw [sameSpans]

theorem kind_of_mem_select
    {names : List String}
    {policy : SymbolPolicy}
    {index : Nat}
    {statement : Statement}
    (placed : index ∈ (source.select names policy).segments)
    (member : statement ∈ source.statementsOf index) :
    statement.kind = .other ∨ statement.kind = .importing ∨
      ∃ name, statement.kind = .definition name := by
  rcases mem_select_iff.mp placed with isCode | chosen
  · rcases isCode.2 statement member with other | importing
    · exact Or.inl other
    · exact Or.inr (Or.inl importing)
  · obtain ⟨name, defines⟩ := Option.isSome_iff_exists.mp (isDefinition_of_mem_chosen chosen).1
    unfold definitionOf? at defines
    split at defines
    next only alone =>
      rw [alone, List.mem_singleton] at member
      subst member
      unfold Statement.definitionName? at defines
      split at defines
      next defined kind => exact Or.inr (Or.inr ⟨defined, kind⟩)
      next => cases defines
    next => cases defines

theorem exists_mem_statementsOf
    (parsed : parse text = .ok source)
    {index : Nat}
    (known : index ∈ source.indices) :
    ∃ statement, statement ∈ source.statementsOf index := by
  obtain ⟨nodes, rfl, lays⟩ := exists_nodes_of_parse parsed
  have partitions := partitions_ofNodes lays
  have found := List.getElem?_eq_getElem (List.mem_range.mp known)
  have member := List.mem_of_getElem? found
  have hasStatement := partitions.hasStatement _ member
  have bound := partitions.numbers.le.2 _ (List.mem_map_of_mem member)
  have first := List.getElem?_eq_getElem (hasStatement.trans_le bound)
  exact ⟨_, mem_statementsOf_iff.mpr ⟨_, ⟨_, found, Nat.le_refl _, hasStatement⟩, first⟩⟩

theorem endsLine_renderAt_of_keep
    (keeps : ∀ statement, edit statement = .keep)
    {index : Nat}
    (hasStatement : source.statementsOf index ≠ []) :
    Text.EndsLine (source.renderAt edit index) := by
  unfold renderAt
  unfold statementsOf at hasStatement
  cases found : source.segments[index]? with
  | none => exact Text.endsLine_nil
  | some segment =>
      rw [found] at hasStatement
      dsimp only at hasStatement ⊢
      rw [renderSegment_of_keep keeps hasStatement]
      exact Text.endsLine_terminated _

/-- A source without imports of modules and of language features. -/
def ImportsNothing (source : ParsedSource) : Prop :=
  ∀ statement ∈ source.statements,
    statement.kind ≠ .importing ∧ statement.kind.isFuture = false

instance (source : ParsedSource) : Decidable source.ImportsNothing :=
  inferInstanceAs (Decidable (∀ statement ∈ source.statements, _))

theorem imports_eq_nil_of_importsNothing
    (parsed : parse text = .ok source)
    (importsNothing : source.ImportsNothing) :
    source.imports = [] := by
  obtain ⟨nodes, rfl, _⟩ := exists_nodes_of_parse parsed
  rw [List.eq_nil_iff_forall_not_mem]
  intro declaration member
  obtain ⟨index, node, _, found, isImport⟩ := exists_node_of_mem_declarationsFrom member
  have statement : node.statement text ∈ (ofNodes text nodes).statements :=
    List.mem_map_of_mem (List.mem_of_getElem? found)
  exact (importsNothing _ statement).1 isImport

end ParsedSource

/-! ## Pieces -/

section Pieces

variable {rendered : Nat → Text} {indices : List Nat}

/-- The empty lines between segments are all that joining them adds. -/
theorem nonBlankLines_joinPieces
    (ended : ∀ index ∈ indices, Text.EndsLine (rendered index))
    (previous : Option Nat) :
    Text.EndsLine
        (joinPieces previous (indices.map fun index => .segment index (rendered index))) ∧
      Text.nonBlankLines
          (joinPieces previous (indices.map fun index => .segment index (rendered index))) =
        Text.nonBlankLines (indices.flatMap rendered) := by
  induction indices generalizing previous with
  | nil => exact ⟨Text.endsLine_nil, rfl⟩
  | cons index rest inductionHypothesis =>
      obtain ⟨endedHere, endedLater⟩ := List.forall_mem_cons.mp ended
      obtain ⟨restEnded, restLines⟩ := inductionHypothesis endedLater (some index)
      have gapEnded : Text.EndsLine
          (if gapBefore previous index (rendered index) then ['\n'] else []) := by
        split
        · exact Text.endsLine_concat []
        · exact Text.endsLine_nil
      have gapBlank : Text.nonBlankLines
          (if gapBefore previous index (rendered index) then ['\n'] else []) = [] := by
        split
        · decide
        · rfl
      rw [List.map_cons, joinPieces, List.flatMap_cons]
      refine ⟨(gapEnded.append endedHere).append restEnded, ?_⟩
      rw [Text.nonBlankLines_append (gapEnded.append endedHere),
        Text.nonBlankLines_append gapEnded, gapBlank, List.nil_append, restLines,
        Text.nonBlankLines_append endedHere]

end Pieces

namespace Written

variable {module : Module} {source : ParsedSource} {written : Written}

/-- Segments that have not been written and do not consist of imports are all written, in their
order. -/
theorem addSegments_of_fresh
    {indices : List Nat}
    (distinct : indices.Nodup)
    (fresh : ∀ index ∈ indices, (module.id, index) ∉ written.segments)
    (notImports : ∀ index ∈ indices,
      ∃ statement ∈ source.statementsOf index, statement.kind ≠ .importing) :
    addSegments module source written indices =
      ({ written with segments := written.segments ++ indices.map (module.id, ·) },
        indices.map fun index => .segment index (source.renderAt module.edit index)) := by
  induction indices generalizing written with
  | nil => simp [addSegments]
  | cons index indices inductionHypothesis =>
      obtain ⟨notLater, restDistinct⟩ := List.nodup_cons.mp distinct
      obtain ⟨statement, member, notImport⟩ := notImports index List.mem_cons_self
      have notAll : (source.statementsOf index).all (·.kind == .importing) = false := by
        rw [List.all_eq_false]
        exact ⟨statement, member, by simpa using notImport⟩
      have first : written.addSegment module source index =
          ({ written with segments := written.segments ++ [(module.id, index)] },
            [.segment index (source.renderAt module.edit index)]) := by
        simp [addSegment, fresh index List.mem_cons_self, notAll]
      simp only [addSegments, first, List.map_cons, List.singleton_append]
      rw [inductionHypothesis restDistinct ?_
        fun other later => notImports other (List.mem_cons_of_mem _ later)]
      · simp
      · intro other later written
        simp only [List.mem_append, List.mem_singleton, Prod.mk.injEq, true_and] at written
        rcases written with before | rfl
        · exact fresh other (List.mem_cons_of_mem _ later) before
        · exact notLater later

theorem addAssignments_of_sameNames (written : Written) (names : List String) :
    written.addAssignments (names.map fun name => ⟨name, none⟩) = (written, []) := by
  induction names with
  | nil => rfl
  | cons name names inductionHypothesis => exact inductionHypothesis

end Written

/-- A chunk that does not show is left out. -/
theorem Output.text_of_blank_chunk
    {output : Output}
    {chunk blankChunk : Chunk}
    (both : output.chunks = [chunk, blankChunk])
    (blank : Text.isBlank blankChunk.text = true) :
    output.text = if Text.isBlank chunk.text then [] else Text.terminated chunk.text := by
  have notShown : blankChunk.isBlank = true := blank
  unfold Output.text Output.visible
  rw [both]
  by_cases blankHere : chunk.isBlank = true
  · have blankText : Text.isBlank chunk.text = true := blankHere
    simp [blankHere, blankText, notShown, joinChunks]
  · have notBlank : ¬ Text.isBlank chunk.text = true := blankHere
    simp [blankHere, notBlank, notShown, joinChunks]

/-! ## The walk -/

/-- A source that consists of one import of names from a module, under these names. -/
structure ParsedSource.ImportsNames
    (source : ParsedSource) (module : ModulePath) (names : List String) : Prop where
  alone : source.HasOneStatement
  declares :
    source.imports.map (fun declaration => (declaration.module, declaration.names)) =
      [(module, .named (names.map fun name => ⟨name, none⟩))]

instance (source : ParsedSource) (module : ModulePath) (names : List String) :
    Decidable (source.ImportsNames module names) :=
  decidable_of_iff (source.HasOneStatement ∧ _) ⟨fun ⟨alone, declares⟩ => ⟨alone, declares⟩,
    fun ⟨alone, declares⟩ => ⟨alone, declares⟩⟩

theorem ParsedSource.ImportsNames.exists_declaration
    {source : ParsedSource}
    {module : ModulePath}
    {names : List String}
    (importsNames : source.ImportsNames module names) :
    ∃ declaration,
      source.imports = [declaration] ∧
        declaration.module = module ∧
        declaration.names = .named (names.map fun name => ⟨name, none⟩) := by
  obtain ⟨declaration, imports, asked⟩ := List.map_eq_singleton_iff.mp importsNames.declares
  obtain ⟨rfl, sameNames⟩ := Prod.mk.inj asked
  exact ⟨declaration, imports, rfl, sameNames⟩

namespace Setting

variable {setting : Setting} {main target : Location} {text : Text} {source : ParsedSource}

theorem exists_load_of_importsNames
    {module : ModulePath}
    {names : List String}
    (python : Language.ofPath main.path = .python)
    (readable : setting.tree.readAt main = .ok text)
    (parsed : ParsedSource.parse text = .ok source)
    (importsNames : source.ImportsNames module names)
    (leads : setting.resolver.resolve setting.tree main.path module = .library target) :
    ∃ loaded spelled line,
      setting.load 0 main true = ([], .ok loaded) ∧
        loaded.parsed = some source ∧
        loaded.dependencies =
          [⟨target, .names (names.map fun name => ⟨name, none⟩), spelled, line⟩] ∧
        loaded.futures = [] ∧
        loaded.edit 0 = .drop := by
  obtain ⟨declaration, imports, sameModule, sameNames⟩ := importsNames.exists_declaration
  have loads : setting.load 0 main true =
      ([], .ok (setting.plannedModule 0 main true source
        [(declaration, some ⟨target, .names (names.map fun name => ⟨name, none⟩),
          String.ofList module.display, declaration.line⟩)])) := by
    simp only [load, python, readable, parsed, plan, imports, dependencies, dependency, sameModule,
      leads, importRemarks, ImportDeclaration.request, sameNames]
    rfl
  obtain ⟨node, rfl, _, _⟩ :=
    ParsedSource.exists_node_of_hasOneStatement parsed importsNames.alone
  have isImport : node.form.kind = .importing := by
    have declared : declaration ∈ (ParsedSource.ofNodes text [node]).imports := by
      rw [imports]
      exact List.mem_singleton_self declaration
    obtain ⟨index, other, _, found, kind⟩ := exists_node_of_mem_declarationsFrom declared
    obtain rfl : other = node := by simpa using List.mem_of_getElem? found
    exact kind
  refine ⟨_, _, _, loads, rfl, rfl, ?_, ?_⟩
  · apply MergeConfig.futures_of_hoistsNothing
    intro _ statement member
    obtain rfl : statement = node.statement text := List.mem_singleton.mp member
    rw [Node.statement, isImport]
    rfl
  · refine (editsStatements_of_load loads rfl).dropped 0 (node.statement text) rfl isImport ?_
    intro other member
    have declared := List.mem_of_mem_filter member
    rw [imports, List.mem_singleton] at declared
    rw [inlines, declared, sameModule, leads]

theorem exists_load_of_importsNothing
    (id : Nat)
    (python : Language.ofPath target.path = .python)
    (readable : setting.tree.readAt target = .ok text)
    (parsed : ParsedSource.parse text = .ok source)
    (importsNothing : source.ImportsNothing) :
    ∃ loaded,
      setting.load id target false = ([], .ok loaded) ∧
        loaded.parsed = some source ∧
        loaded.dependencies = [] ∧
        loaded.futures = [] := by
  have noImports := ParsedSource.imports_eq_nil_of_importsNothing parsed importsNothing
  refine ⟨setting.plannedModule id target false source [], ?_, rfl, rfl, ?_⟩
  · simp only [load, python, readable, parsed, plan, noImports, dependencies]
    rfl
  · apply MergeConfig.futures_of_hoistsNothing
    exact fun _ statement member => (importsNothing statement member).2

/-- A walk along one import of a file that imports nothing. -/
theorem exists_run_of_one_dependency
    {dependency : Dependency}
    {mainModule library : Module}
    (mainLoaded : setting.load 0 main true = ([], .ok mainModule))
    (dependencies : mainModule.dependencies = [dependency])
    (different : dependency.target.path.components ≠ main.path.components)
    (loaded : setting.load 1 dependency.target false = ([], .ok library))
    (noDependencies : library.dependencies = []) :
    ∃ registry,
      ((Walk.empty setting).push mainModule [] .main).run setting =
          (⟨registry, [], [.serve 1 dependency.request, .serve 0 .main]⟩, none) ∧
        registry.modules = [mainModule, library] := by
  have mainId := id_of_load mainLoaded
  have mainPath := path_of_load mainLoaded
  have libraryId := id_of_load loaded
  have libraryPath := path_of_load loaded
  have apart : (dependency.target.path.components == main.path.components) = false :=
    beq_eq_false_iff_ne.mpr different
  have fourSteps :
      ∃ registry,
        ((Walk.empty setting).push mainModule [] .main).runWithin setting 4 =
            some (⟨registry, [], [.serve 1 dependency.request, .serve 0 .main]⟩, none) ∧
          registry.modules = [mainModule, library] := by
    simp [Walk.runWithin, Walk.step, Walk.push, Walk.enter, Walk.leave, Walk.empty, Registry.empty,
      Registry.register, Registry.add, Registry.lookup, Registry.attach, Registry.markResolved,
      List.lookup_cons, dependencies, noDependencies, loaded, mainId, mainPath, libraryId,
      libraryPath, apart]
  obtain ⟨registry, ran, modules⟩ := fourSteps
  exact ⟨registry, Walk.run_of_runWithin ran, modules⟩

/-- What is written for names of a file that imports nothing: the segments that the names select, as
they are. -/
theorem serve_names_of_importsNothing
    {id : Nat}
    {library : Module}
    {remarks : List Remark}
    (policy : SymbolPolicy)
    (names : List String)
    (loaded : setting.load id target false = (remarks, .ok library))
    (analysed : library.parsed = some source)
    (parsed : ParsedSource.parse text = .ok source)
    (importsNothing : source.ImportsNothing) :
    Output.empty.serve policy library (.names (names.map fun name => ⟨name, none⟩)) =
      ⟨⟨(source.select names policy).segments.map (library.id, ·), [], []⟩,
        [⟨library.id, library.isMain,
          (source.select names policy).segments.map fun index =>
            .segment index (source.renderAt (fun _ => .keep) index), none⟩]⟩ := by
  have edits := editsStatements_of_load loaded analysed
  have asked : (names.map fun name => (⟨name, none⟩ : ImportedName)).map (·.name) = names := by
    rw [List.map_map]
    exact List.map_id names
  have isStatement : ∀ index statement, statement ∈ source.statementsOf index →
      statement ∈ source.statements := fun _ _ => ParsedSource.mem_statements_of_mem_statementsOf
  have sameText : ∀ index ∈ (source.select names policy).segments,
      source.renderAt library.edit index = source.renderAt (fun _ => .keep) index := by
    intro index placed
    apply ParsedSource.renderAt_congr
    intro number statement holds found
    have member := ParsedSource.mem_statementsOf_iff.mpr ⟨number, holds, found⟩
    rcases ParsedSource.kind_of_mem_select placed member with other | importing | definition
    · exact edits.other number statement found (Or.inl other)
    · exact absurd importing (importsNothing statement (isStatement index statement member)).1
    · exact edits.other number statement found (Or.inr definition)
  have notImports : ∀ index ∈ (source.select names policy).segments,
      ∃ statement ∈ source.statementsOf index, statement.kind ≠ .importing := by
    intro index placed
    have known := (ParsedSource.mem_selectable_iff.mp
      (ParsedSource.mem_selectable_of_mem_select placed)).1
    obtain ⟨statement, member⟩ := ParsedSource.exists_mem_statementsOf parsed known
    exact ⟨statement, member, (importsNothing statement (isStatement index statement member)).1⟩
  have pieces :
      Written.addSegments library source .nothing (source.select names policy).segments =
        ({ Written.nothing with
            segments := [] ++ (source.select names policy).segments.map (library.id, ·) },
          (source.select names policy).segments.map fun index =>
            .segment index (source.renderAt (fun _ => .keep) index)) := by
    rw [Written.addSegments_of_fresh (source.nodup_select names policy)
      (fun _ _ => List.not_mem_nil) notImports]
    refine congrArg _ (List.map_congr_left fun index placed => ?_)
    rw [sameText index placed]
  simp only [Output.serve, Output.empty, Written.addPieces, analysed, Request.selection, asked,
    pieces, Request.addRest, Written.addAssignments_of_sameNames]
  simp [Written.nothing]

/-- A main file that consists of one import of names from a file that imports nothing is merged
into the segments that the names select in that file. -/
theorem exists_mergeAt_of_importsNames
    {module : ModulePath}
    {names : List String}
    {libraryText : Text}
    {library : ParsedSource}
    (python : Language.ofPath main.path = .python)
    (readable : setting.tree.readAt main = .ok text)
    (parsed : ParsedSource.parse text = .ok source)
    (importsNames : source.ImportsNames module names)
    (leads : setting.resolver.resolve setting.tree main.path module = .library target)
    (different : target.path.components ≠ main.path.components)
    (libraryPython : Language.ofPath target.path = .python)
    (libraryReadable : setting.tree.readAt target = .ok libraryText)
    (libraryParsed : ParsedSource.parse libraryText = .ok library)
    (importsNothing : library.ImportsNothing) :
    ∃ remarks outcome,
      setting.mergeAt main = (remarks, .ok outcome) ∧
        Text.nonBlankLines outcome.text =
          (Text.nonBlankLines
            ((library.select names setting.config.symbolPolicy).segments.flatMap
              (library.renderAt fun _ => .keep))).map Text.withoutReturn := by
  obtain ⟨mainModule, spelled, line, mainLoaded, mainAnalysed, dependencies, mainFutures,
      dropped⟩ :=
    exists_load_of_importsNames python readable parsed importsNames leads
  obtain ⟨libraryModule, loaded, analysed, noDependencies, futures⟩ :=
    exists_load_of_importsNothing 1 libraryPython libraryReadable libraryParsed importsNothing
  obtain ⟨registry, ran, modules⟩ :=
    exists_run_of_one_dependency mainLoaded dependencies different loaded noDependencies
  have notVerbatim : mainModule.isVerbatim = false := by
    rw [Module.isVerbatim, mainAnalysed]
    rfl
  have mainText : mainModule.text = source.text := by
    have same := (text_of_load mainLoaded).symm.trans readable
    rw [Except.ok.inj same, ParsedSource.text_of_parse parsed]
  have noHeader : header mainModule.text registry.futures = [] := by
    have noFeatures : registry.futures = [] := by
      simp [Registry.futures, modules, mainFutures, futures]
    rw [header, noFeatures, mainText,
      ParsedSource.shebang?_of_hasOneStatement parsed importsNames.alone]
    rfl
  have served := serve_names_of_importsNothing setting.config.symbolPolicy names loaded analysed
    libraryParsed importsNothing
  have written :
      setting.output registry
          [.serve 1 (.names (names.map fun name => ⟨name, none⟩)), .serve 0 .main] =
        (Output.empty.serve setting.config.symbolPolicy libraryModule
          (.names (names.map fun name => ⟨name, none⟩))).serve setting.config.symbolPolicy
            mainModule .main := by
    simp [output, Registry.module?, modules]
  have fresh : ∀ index, (mainModule.id, index) ∉
      (Output.empty.serve setting.config.symbolPolicy libraryModule
        (.names (names.map fun name => ⟨name, none⟩))).written.segments := by
    intro index
    rw [served, id_of_load mainLoaded, id_of_load loaded]
    simp
  obtain ⟨mainChunk, chunks, _, mainChunkText⟩ := Output.serve_main setting.config.symbolPolicy
    mainAnalysed mainText (isMain_of_load mainLoaded) fresh
  have mainBlank : Text.isBlank mainChunk.text = true := by
    rw [mainChunkText]
    exact ParsedSource.isBlank_renderBelow_of_drop parsed importsNames.alone dropped
  rw [served] at chunks
  refine ⟨_, _, mergeAt_of_run mainLoaded notVerbatim ran, ?_⟩
  have ended : ∀ index ∈ (library.select names setting.config.symbolPolicy).segments,
      Text.EndsLine (library.renderAt (fun _ => .keep) index) := by
    intro index placed
    have known := (ParsedSource.mem_selectable_iff.mp
      (ParsedSource.mem_selectable_of_mem_select placed)).1
    obtain ⟨statement, member⟩ := ParsedSource.exists_mem_statementsOf libraryParsed known
    exact ParsedSource.endsLine_renderAt_of_keep (fun _ => rfl) (List.ne_nil_of_mem member)
  obtain ⟨joinedEnded, joinedLines⟩ := nonBlankLines_joinPieces ended none
  simp only [outcome, noHeader, written, served, List.nil_append]
  rw [Output.text_of_blank_chunk chunks mainBlank, Text.nonBlankLines_normalizeBlankLines]
  rw [← joinedLines]
  exact congrArg _ (Text.nonBlankLines_shown joinedEnded)

end Setting

/-- A main file that consists of one import of names, from a module that imports nothing and is in
the language, as it is without links, is merged.  The non-blank lines of the merged text are those
of the text that the names are extracted to, each without a carriage return at its end.  So they
are the same exactly if no line of the extracted text that shows something ends with a carriage
return. -/
theorem merge_named_import_extracts
    {config : MergeConfig}
    {tree : FileTree}
    {file : Path}
    {text libraryText : Text}
    {source library : ParsedSource}
    {module : ModulePath}
    {names : List String}
    {target : Location}
    (valid : config.validate tree = .ok ())
    (python : Language.ofPath (tree.normalize file).path = .python)
    (readable : tree.readAt (tree.normalize file) = .ok text)
    (parsed : ParsedSource.parse text = .ok source)
    (importsNames : source.ImportsNames module names)
    (leads : (Resolver.ofConfig config tree).resolve tree (tree.normalize file).path module =
      .library target)
    (libraryPython : tree.links = [] ∨ Language.ofPath target.path = .python)
    (libraryReadable : tree.readAt target = .ok libraryText)
    (libraryParsed : ParsedSource.parse libraryText = .ok library)
    (importsNothing : library.ImportsNothing) :
    ∃ remarks outcome extracted missing,
      merge config tree file = (remarks, .ok outcome) ∧
        extractSymbols libraryText (some names) config.symbolPolicy = .ok (extracted, missing) ∧
        Text.nonBlankLines outcome.text =
          (Text.nonBlankLines extracted).map Text.withoutReturn ∧
        (Text.nonBlankLines outcome.text = Text.nonBlankLines extracted ↔
          ∀ line ∈ Text.nonBlankLines extracted, line.getLast? ≠ some '\r') := by
  have imported : target ∈ Setting.targets ⟨config, tree⟩ (tree.normalize file) := by
    obtain ⟨declaration, imports, sameModule, _⟩ := importsNames.exists_declaration
    have analysed : tree.parsedAt? (tree.normalize file) = some source := by
      simp only [FileTree.parsedAt?, readable, parsed]
      rfl
    simp only [Setting.targets, analysed, Setting.targetsOf, imports]
    refine List.mem_filterMap.mpr ⟨declaration, List.mem_singleton_self _, ?_⟩
    rw [sameModule, Setting.resolver, leads]
  have plain := Setting.isPlain_of_mem_targets imported
  have inLanguage : Language.ofPath target.path = .python :=
    libraryPython.elim (Setting.python_of_mem_targets valid · imported) id
  have different : target.path.components ≠ (tree.normalize file).path.components := by
    intro same
    obtain rfl := Location.eq_of_components_path_eq plain (tree.isPlain_normalize file) same
    rw [readable] at libraryReadable
    obtain rfl := Except.ok.inj libraryReadable
    rw [parsed] at libraryParsed
    obtain rfl := Except.ok.inj libraryParsed
    obtain ⟨declaration, imports, _⟩ := importsNames.exists_declaration
    rw [ParsedSource.imports_eq_nil_of_importsNothing parsed importsNothing] at imports
    cases imports
  obtain ⟨remarks, outcome, merged, lines⟩ :=
    @Setting.exists_mergeAt_of_importsNames ⟨config, tree⟩ _ _ _ _ _ _ _ _ python readable parsed
      importsNames leads different inLanguage libraryReadable libraryParsed importsNothing
  have extracts : extractSymbols libraryText (some names) config.symbolPolicy =
      .ok ((library.select names config.symbolPolicy).segments.flatMap
        (library.renderAt fun _ => .keep), (library.select names config.symbolPolicy).missing) := by
    rw [extractSymbols, libraryParsed]
  refine ⟨remarks, outcome, _, _, ?_, extracts, lines, ?_⟩
  · rw [merge, valid]
    exact merged
  · rw [lines, Text.map_withoutReturn_eq_self_iff]

/-- A main file that asks for a name. -/
def askingText : String :=
  "from lib.m import f\n"

/-- A directory with this file and a module of the library. -/
def askingTree (library : String) : FileTree :=
  .ofTexts ["w"] [(["w", "main.py"], askingText), (["w", "contest", "lib", "m.py"], library)]

/-- A module with a shared line, a block that runs only in the main file, and a last line that is
not ended. -/
def layeredModule : String :=
  "# t\nx = 1; y = 2\r\nif __name__ == '__main__':\n    f()\n\ndef g(): pass\ndef f(): return x"

theorem merge_layeredModule_extracts :
    ∃ remarks outcome,
      merge {} (askingTree layeredModule) (.ofString "main.py") = (remarks, .ok outcome) ∧
        Text.nonBlankLines outcome.text =
          ["# t".toList, "x = 1; y = 2".toList, "def f(): return x".toList] := by
  have facts :
      ∃ source library,
        ParsedSource.parse askingText.toList = .ok source ∧
          source.ImportsNames ⟨0, ["lib", "m"]⟩ ["f"] ∧
          ParsedSource.parse layeredModule.toList = .ok library ∧
          library.ImportsNothing :=
    ⟨(ParsedSource.parse askingText.toList).toOption.getD default,
      (ParsedSource.parse layeredModule.toList).toOption.getD default, by decide +kernel⟩
  have leads :
      (Resolver.ofConfig {} (askingTree layeredModule)).resolve (askingTree layeredModule)
          ((askingTree layeredModule).normalize (.ofString "main.py")).path ⟨0, ["lib", "m"]⟩ =
        .library ⟨["w".toList, "contest".toList, "lib".toList, "m.py".toList]⟩ := by
    decide +kernel
  have evaluated :
      extractSymbols layeredModule.toList (some ["f"]) .withDependencies =
        .ok ("# t\nx = 1; y = 2\r\ndef f(): return x\n".toList, []) := by
    decide +kernel
  obtain ⟨source, library, parsed, importsNames, libraryParsed, importsNothing⟩ := facts
  obtain ⟨remarks, outcome, extracted, missing, merged, extracts, _, same⟩ :=
    merge_named_import_extracts (by decide +kernel) (by decide +kernel) (by decide +kernel)
      parsed importsNames leads (Or.inl (by decide +kernel)) (by decide +kernel) libraryParsed
      importsNothing
  obtain ⟨rfl, rfl⟩ := Prod.mk.inj (Except.ok.inj (evaluated.symm.trans extracts))
  refine ⟨remarks, outcome, merged, ?_⟩
  rw [same.mpr (by decide +kernel)]
  decide +kernel

/-- A module with a comment that ends with two carriage returns before its line feed. -/
def returningModule : String :=
  "# c\r\r\ndef f(): pass\n"

/-- One of the carriage returns stays in the line when it is extracted, and none when it is
merged. -/
theorem merge_returningModule_differs :
    ∃ source library remarks outcome,
      ParsedSource.parse askingText.toList = .ok source ∧
        source.ImportsNames ⟨0, ["lib", "m"]⟩ ["f"] ∧
        ParsedSource.parse returningModule.toList = .ok library ∧
        library.ImportsNothing ∧
        merge {} (askingTree returningModule) (.ofString "main.py") = (remarks, .ok outcome) ∧
        outcome.text = "# c\r\ndef f(): pass\n".toList ∧
        extractSymbols returningModule.toList (some ["f"]) .withDependencies =
          .ok (returningModule.toList, []) ∧
        Text.nonBlankLines outcome.text ≠ Text.nonBlankLines returningModule.toList := by
  have facts :
      ∃ source library,
        ParsedSource.parse askingText.toList = .ok source ∧
          source.ImportsNames ⟨0, ["lib", "m"]⟩ ["f"] ∧
          ParsedSource.parse returningModule.toList = .ok library ∧
          library.ImportsNothing :=
    ⟨(ParsedSource.parse askingText.toList).toOption.getD default,
      (ParsedSource.parse returningModule.toList).toOption.getD default, by decide +kernel⟩
  have evaluated :
      (mergeWithin 12 {} (askingTree returningModule) (.ofString "main.py")).map (·.text) =
        some "# c\r\ndef f(): pass\n".toList := by
    decide +kernel
  obtain ⟨source, library, parsed, importsNames, libraryParsed, importsNothing⟩ := facts
  obtain ⟨remarks, outcome, merged, text⟩ := merge_of_mergeWithin 12 evaluated
  refine ⟨source, library, remarks, outcome, parsed, importsNames, libraryParsed, importsNothing,
    merged, text, by decide +kernel, ?_⟩
  rw [text]
  decide +kernel

end Inliner
