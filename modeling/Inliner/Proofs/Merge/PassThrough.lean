import Inliner.Proofs.Merge.MainChunk
import Inliner.Proofs.Merge.MergedLines
import Inliner.Proofs.Source.Unedited

/-!
# Files that import no module file

A main file none of whose imports leads to a module file is merged into its own text: the line ends
after a first line that names the program to run become one line feed, the last line is ended, and
blank lines are put in normal form.
-/

namespace Inliner

open Syntax

/-! ## The first line and what stands below it -/

namespace Text

/-- Whether a character ends a line or can be part of a line end. -/
def isLineEnd (character : Char) : Bool :=
  character == '\r' || character == '\n'

/-- A text in which one line feed stands for all the line ends after the first line, if that line
starts with a number sign and an exclamation mark. -/
def respaced (text : Text) : Text :=
  match (lines text).head? with
  | some line =>
      if ['#', '!'] <+: line then
        line ++ '\n' :: (text.drop line.length).dropWhile isLineEnd
      else
        text
  | none => text

/-- What stands below a first line that names the program to run. -/
def below (text : Text) : Text :=
  match shebang? text with
  | some line => withoutShebang line text
  | none => text

/-- What is written of a text that is merged alone: its first line, if that names the program to
run, and what stands below it. -/
def restacked (text : Text) : Text :=
  header text [] ++ text.below

theorem withoutShebang_append (line rest : Text) :
    withoutShebang line (line ++ rest) = rest.dropWhile isLineEnd := by
  have starts : line.isPrefixOf (line ++ rest) = true :=
    List.isPrefixOf_iff_prefix.mpr (List.prefix_append line rest)
  simp only [withoutShebang, withoutStart?, starts, ↓reduceIte, List.drop_left]
  rfl

theorem prefix_of_shebang?
    {text line : Text}
    (named : shebang? text = some line) :
    line <+: text :=
  (prefix_takeWhile_of_head?_lines (Option.filter_eq_some_iff.mp named).1).trans
    (List.takeWhile_prefix _)

theorem restacked_eq_respaced (text : Text) : text.restacked = text.respaced := by
  cases first : (lines text).head? with
  | none =>
      have unnamed : shebang? text = none := by rw [shebang?, first, Option.filter_none]
      simp [restacked, header, futureLine, below, respaced, unnamed, first]
  | some line =>
      by_cases marked : ['#', '!'] <+: line
      · have named : shebang? text = some line := by
          rw [shebang?, first]
          exact Option.filter_some_pos (List.isPrefixOf_iff_prefix.mpr marked)
        have split : text = line ++ text.drop line.length :=
          List.prefix_iff_eq_append.mp (prefix_of_shebang? named) |>.symm
        have restBelow :
            withoutShebang line text = (text.drop line.length).dropWhile isLineEnd := by
          rw [← withoutShebang_append line, ← split]
        simp [restacked, header, futureLine, below, respaced, named, first, marked, restBelow]
      · have unnamed : shebang? text = none := by
          rw [shebang?, first]
          apply Option.filter_some_neg
          exact Bool.eq_false_iff.mpr (fun starts => marked (List.isPrefixOf_iff_prefix.mp starts))
        simp [restacked, header, futureLine, below, respaced, unnamed, first, marked]

/-! ## Ending the last line -/

/-- A text that is written below ended lines and left out if there is nothing to see of it makes the
same normal form as all of it with its last line ended. -/
theorem normalizeBlankLines_append_shown
    {above shown : Text}
    (ended : EndsLine above) :
    normalizeBlankLines (above ++ if isBlank shown then [] else terminated shown) =
      normalizeBlankLines (terminated (above ++ shown)) := by
  by_cases blank : isBlank shown = true
  · rw [if_pos blank, List.append_nil]
    rcases terminated_eq (above ++ shown) with same | more
    · rw [same, normalizeBlankLines_append_blank ended blank]
    · have blankTail : isBlank (shown ++ ['\n']) = true := by
        rw [isBlank_append, blank]
        decide
      rw [more, List.append_assoc, normalizeBlankLines_append_blank ended blankTail]
  · have notEmpty : shown ≠ [] := by
      rintro rfl
      exact blank rfl
    rw [if_neg blank, terminated_append above notEmpty]

/-- The end of the last line stays below the first line, unless nothing else does. -/
theorem dropWhile_terminated (text : Text) :
    (terminated text).dropWhile isLineEnd = text.dropWhile isLineEnd ∨
      (terminated text).dropWhile isLineEnd = terminated (text.dropWhile isLineEnd) := by
  rcases terminated_eq text with same | more
  · rw [same]
    exact Or.inl rfl
  · rw [more, List.dropWhile_append]
    by_cases nothing : (text.dropWhile isLineEnd).isEmpty = true
    · rw [if_pos nothing, List.isEmpty_iff.mp nothing]
      exact Or.inl rfl
    · have notEmpty : text.dropWhile isLineEnd ≠ [] :=
        fun empty => nothing (List.isEmpty_iff.mpr empty)
      right
      rw [if_neg nothing]
      have split := List.takeWhile_append_dropWhile (p := isLineEnd) (l := text)
      rw [← split, terminated_append _ notEmpty, List.append_assoc] at more
      exact (List.append_cancel_left more).symm

end Text

/-! ## Rendering the file -/

namespace ParsedSource

variable {text : Text} {source : ParsedSource} {edit : Nat → Edit}

theorem render_eq_or_terminated
    (parsed : ParsedSource.parse text = .ok source)
    (keeps : ∀ statement, edit statement = .keep) :
    source.render edit = text ∨ source.render edit = Text.terminated text := by
  obtain ⟨nodes, rfl, lays⟩ := exists_nodes_of_parse parsed
  rw [render_of_keep lays keeps]
  by_cases unterminated : (ofNodes text nodes).Unterminated
  · obtain ⟨statement, isLast, noFeed⟩ := unterminated
    have inText : statement.span.last < text.length := by
      apply lays.spans.last_lt_length
      rw [← map_span_statements text nodes]
      exact List.mem_map_of_mem (List.mem_of_getLast? isLast)
    have notEnded := Text.not_endsLine_of_not_mem_drop inText noFeed
    rw [if_pos ⟨statement, isLast, noFeed⟩, Text.terminated_of_not_endsLine notEnded]
    exact Or.inr rfl
  · rw [if_neg unterminated]
    exact Or.inl rfl

theorem renderBelow_eq_or_terminated
    (parsed : ParsedSource.parse text = .ok source)
    (keeps : ∀ statement, edit statement = .keep) :
    source.renderBelow edit = text.below ∨
      source.renderBelow edit = Text.terminated text.below := by
  have rendered := render_eq_or_terminated parsed keeps
  rw [renderBelow, text_of_parse parsed, Text.below]
  cases named : shebang? text with
  | none => exact rendered
  | some line =>
      dsimp only
      obtain ⟨rest, split⟩ := Text.prefix_of_shebang? named
      rw [← split] at rendered ⊢
      rcases rendered with same | ended
      · rw [same]
        exact Or.inl rfl
      · rw [ended]
        cases rest with
        | nil =>
            -- The line feed that ends the first line is cut off with it.
            left
            rcases Text.terminated_eq (line ++ []) with same | more
            · rw [same]
            · rw [more, List.append_assoc, Text.withoutShebang_append, Text.withoutShebang_append]
              rfl
        | cons first rest =>
            rw [Text.terminated_append line (List.cons_ne_nil first rest),
              Text.withoutShebang_append, Text.withoutShebang_append]
            exact Text.dropWhile_terminated _

end ParsedSource

/-- An output of one chunk shows the chunk if there is something to see of it. -/
theorem Output.text_of_chunk
    {output : Output}
    {chunk : Chunk}
    (only : output.chunks = [chunk]) :
    output.text = if Text.isBlank chunk.text then [] else Text.terminated chunk.text := by
  unfold Output.text Output.visible
  rw [only]
  by_cases blank : chunk.isBlank = true
  · have blankText : Text.isBlank chunk.text = true := blank
    simp [blank, blankText, joinChunks]
  · have notBlank : ¬ Text.isBlank chunk.text = true := blank
    simp [blank, notBlank, joinChunks]

theorem Output.libraryModules_of_chunk
    {output : Output}
    {chunk : Chunk}
    (only : output.chunks = [chunk])
    (isMain : chunk.isMain = true) :
    output.libraryModules = [] := by
  unfold Output.libraryModules Output.visible
  rw [only]
  by_cases blank : chunk.isBlank = true
  · simp [blank]
  · simp [blank, isMain]

/-! ## Merging the file -/

/-- Whether a statement imports language features. -/
def StatementKind.isFuture : StatementKind → Bool
  | .future _ => true
  | .definition _ | .importing | .mainGuard | .other => false

namespace MergeConfig

variable {config : MergeConfig} {source : ParsedSource}

/-- No statement of a source is an import of language features that moves to the top. -/
def HoistsNothing (config : MergeConfig) (source : ParsedSource) : Prop :=
  config.hoistFutureImports = true →
    ∀ statement ∈ source.statements, statement.kind.isFuture = false

theorem statementEdits_of_hoistsNothing
    (hoistsNothing : config.HoistsNothing source) :
    config.statementEdits true source = [] := by
  rw [statementEdits, List.filterMap_eq_nil_iff]
  rintro ⟨statement, index⟩ member
  have inSource : statement ∈ source.statements := List.fst_mem_of_mem_zipIdx member
  have unedited : config.statementEdit true statement = none := by
    unfold statementEdit
    split
    next names kind =>
      rw [if_neg]
      intro hoists
      have notFuture := hoistsNothing hoists statement inSource
      rw [kind] at notFuture
      cases notFuture
    next => rfl
    next => rfl
  dsimp only
  rw [unedited]
  rfl

theorem futures_of_hoistsNothing
    (hoistsNothing : config.HoistsNothing source) :
    config.futures source = [] := by
  unfold futures
  split
  next hoists =>
    rw [List.flatMap_eq_nil_iff]
    intro statement member
    split
    next names kind =>
      have notFuture := hoistsNothing hoists statement member
      rw [kind] at notFuture
      cases notFuture
    next => rfl
  next => rfl

end MergeConfig

/-- Import statements none of whose imports leads to a module file are kept. -/
theorem keep_of_mem_importEdits
    {imports : List (ImportDeclaration × Option Dependency)}
    (noneLeads : ∀ pair ∈ imports, pair.2 = none)
    {entry : Nat × Edit}
    (member : entry ∈ importEdits imports) :
    entry.2 = .keep := by
  obtain ⟨statement, listed, rfl⟩ := List.mem_map.mp member
  obtain ⟨pair, inImports, isStatement⟩ := List.mem_map.mp (List.mem_eraseDups.mp listed)
  have decided := @importEdit_eq (fun _ => false) (imports.filter (·.1.statement == statement)) (by
    intro other inFilter
    rw [noneLeads other (List.mem_filter.mp inFilter).1]
    rfl)
  have met : pair ∈ imports.filter (·.1.statement == statement) :=
    List.mem_filter.mpr ⟨inImports, by simpa using isStatement⟩
  have notAll :
      ¬ ((imports.filter (·.1.statement == statement)).map (·.1)).all (fun _ => false) = true := by
    intro all
    exact absurd (List.all_eq_true.mp all pair.1 (List.mem_map_of_mem met)) (by decide)
  dsimp only
  rw [decided, if_neg notAll]
  simp

namespace Setting

variable {setting : Setting} {main : Location} {text : Text} {source : ParsedSource}

/-- Whether an import of a main file leads to no module file, and need not lead to one. -/
def leavesAlone (setting : Setting) (main : Location) (declaration : ImportDeclaration) : Bool :=
  match setting.resolver.resolve setting.tree main.path declaration.module with
  | .library _ => false
  | .foreign => true
  | .missing _ => setting.isLenient main

theorem dependency_of_leavesAlone
    {declaration : ImportDeclaration}
    (alone : setting.leavesAlone main declaration = true) :
    ∃ remarks,
      setting.dependency main (setting.isLenient main) declaration = .ok (none, remarks) := by
  unfold leavesAlone at alone
  unfold dependency
  cases resolution : setting.resolver.resolve setting.tree main.path declaration.module with
  | library target =>
      rw [resolution] at alone
      cases alone
  | foreign => exact ⟨[], rfl⟩
  | missing reason =>
      rw [resolution] at alone
      dsimp only at alone ⊢
      rw [if_pos alone]
      exact ⟨_, rfl⟩

/-- Imports that lead to no module file amount to no dependency. -/
theorem exists_dependencies_of_leavesAlone
    {declarations : List ImportDeclaration}
    (alone : ∀ declaration ∈ declarations, setting.leavesAlone main declaration = true) :
    ∃ remarks, setting.dependencies main (setting.isLenient main) declarations =
      (remarks, .ok (declarations.map fun declaration => (declaration, none))) := by
  induction declarations with
  | nil => exact ⟨[], rfl⟩
  | cons declaration declarations inductionHypothesis =>
      obtain ⟨remarks, first⟩ := dependency_of_leavesAlone (alone declaration List.mem_cons_self)
      obtain ⟨more, rest⟩ := inductionHypothesis
        (fun other later => alone other (List.mem_cons_of_mem _ later))
      exact ⟨remarks ++ more, by simp only [dependencies, first, rest, List.map_cons]⟩

/-- What becomes of a main file that imports no module file: it has no dependencies, and all its
statements are kept. -/
theorem exists_load_of_leavesAlone
    (python : Language.ofPath main.path = .python)
    (readable : setting.tree.readAt main = .ok text)
    (parsed : ParsedSource.parse text = .ok source)
    (hoistsNothing : setting.config.HoistsNothing source)
    (alone : ∀ declaration ∈ source.imports, setting.leavesAlone main declaration = true) :
    ∃ remarks module,
      setting.load 0 main true = (remarks, .ok module) ∧
        module.id = 0 ∧
        module.isMain = true ∧
        module.parsed = some source ∧
        module.text = text ∧
        module.dependencies = [] ∧
        module.futures = [] ∧
        ∀ statement, module.edit statement = .keep := by
  let imports := source.imports.map fun declaration => (declaration, (none : Option Dependency))
  have noneLeads : ∀ pair ∈ imports, pair.2 = none := by
    intro pair member
    obtain ⟨_, _, rfl⟩ := List.mem_map.mp member
    rfl
  obtain ⟨remarks, settled⟩ := exists_dependencies_of_leavesAlone alone
  refine ⟨remarks, setting.plannedModule 0 main true source imports, ?_, rfl, rfl, rfl,
    ParsedSource.text_of_parse parsed, ?_, MergeConfig.futures_of_hoistsNothing hoistsNothing, ?_⟩
  · simp only [load, python, readable, parsed, plan, settled]
    rfl
  · exact List.filterMap_eq_nil_iff.mpr noneLeads
  · intro statement
    have edits :
        (setting.plannedModule 0 main true source imports).edits = importEdits imports := by
      rw [plannedModule, MergeConfig.statementEdits_of_hoistsNothing hoistsNothing,
        List.append_nil]
    rw [Module.edit, edits]
    cases found : (importEdits imports).lookup statement with
    | none => rfl
    | some edit =>
        obtain ⟨before, after, split, _⟩ := List.lookup_eq_some_iff.mp found
        have member : (statement, edit) ∈ importEdits imports := by
          rw [split]
          simp
        exact keep_of_mem_importEdits noneLeads member

/-- A main file without dependencies is served at once. -/
theorem run_of_dependencies_eq_nil
    (setting : Setting)
    {module : Module}
    (remarks : List Remark)
    (noDependencies : module.dependencies = []) :
    ((Walk.empty setting).push module remarks .main).run setting =
      ({ registry :=
          ((Walk.empty setting).push module remarks .main).registry.markResolved module.id
         frames := []
         events := remarks.map .remark ++ [.serve module.id .main] }, none) := by
  have twoSteps :
      ((Walk.empty setting).push module remarks .main).runWithin setting 2 =
        some ({ registry :=
            ((Walk.empty setting).push module remarks .main).registry.markResolved module.id
                frames := []
                events := remarks.map .remark ++ [.serve module.id .main] }, none) := by
    simp [Walk.runWithin, Walk.step, Walk.push, Walk.leave, Walk.empty, noDependencies]
  exact Walk.run_of_runWithin twoSteps

/-- Nothing is written for remarks. -/
theorem output_remarks (setting : Setting) (registry : Registry) (remarks : List Remark) :
    setting.output registry (remarks.map .remark) = .empty := by
  induction remarks with
  | nil => rfl
  | cons remark remarks inductionHypothesis => exact inductionHypothesis

/-- A main file that imports no module file is merged into its own text. -/
theorem exists_mergeAt_of_leavesAlone
    (python : Language.ofPath main.path = .python)
    (readable : setting.tree.readAt main = .ok text)
    (parsed : ParsedSource.parse text = .ok source)
    (hoistsNothing : setting.config.HoistsNothing source)
    (alone : ∀ declaration ∈ source.imports, setting.leavesAlone main declaration = true) :
    ∃ remarks outcome,
      setting.mergeAt main = (remarks, .ok outcome) ∧
        outcome.modules = [] ∧
        outcome.text = Text.normalizeBlankLines (Text.terminated text.respaced) := by
  obtain ⟨remarks, module, loaded, number, isMain, analysed, sameText, noDependencies, noFeatures,
    keeps⟩ := exists_load_of_leavesAlone python readable parsed hoistsNothing alone
  have notVerbatim : module.isVerbatim = false := by
    rw [Module.isVerbatim, analysed]
    rfl
  have merged := mergeAt_of_run loaded notVerbatim
    (run_of_dependencies_eq_nil setting remarks noDependencies)
  generalize isRegistry :
    ((Walk.empty setting).push module remarks .main).registry.markResolved module.id = registry
    at merged
  have modules : registry.modules = [module] := by
    rw [← isRegistry]
    rfl
  have found : registry.module? module.id = some module := by
    rw [Registry.module?, modules, number]
    rfl
  have features : registry.futures = [] := by
    simp [Registry.futures, modules, noFeatures]
  have written :
      setting.output registry (remarks.map .remark ++ [.serve module.id .main]) =
        Output.empty.serve setting.config.symbolPolicy module .main := by
    rw [output_append, output_remarks]
    simp only [outputStep, found]
  have fresh : ∀ index, (module.id, index) ∉ Output.empty.written.segments :=
    fun _ => List.not_mem_nil
  obtain ⟨chunk, chunks, _, chunkText⟩ := Output.serve_main setting.config.symbolPolicy analysed
    (sameText.trans (ParsedSource.text_of_parse parsed).symm) isMain fresh
  have chunkMain : chunk.isMain = true := by
    have same := List.singleton_inj.mp chunks
    rw [← same]
    exact isMain
  refine ⟨_, _, merged, ?_, ?_⟩
  · simp only [outcome, written, Output.libraryModules_of_chunk chunks chunkMain,
      List.filterMap_nil]
  · simp only [outcome, features, written, sameText]
    rw [Output.text_of_chunk chunks, chunkText, ← Text.restacked_eq_respaced]
    -- Rendering may have ended the last line already, which makes no difference to the chunk.
    rcases ParsedSource.renderBelow_eq_or_terminated parsed keeps with same | ended
    · rw [same]
      exact Text.normalizeBlankLines_append_shown (Text.endsLine_header text [])
    · rw [ended, Text.isBlank_terminated, Text.terminated_terminated]
      exact Text.normalizeBlankLines_append_shown (Text.endsLine_header text [])

end Setting

/-- A file that can be analysed and imports no module file is merged, with no library modules, into
its own text with the last line ended, in blank-line normal form.  Where the first line names the
program to run, the line ends after it first become one line feed. -/
theorem merge_without_library_imports
    {config : MergeConfig}
    {tree : FileTree}
    {file : Path}
    {text : Text}
    {source : ParsedSource}
    (valid : config.validate tree = .ok ())
    (python : Language.ofPath (tree.normalize file).path = .python)
    (readable : tree.readAt (tree.normalize file) = .ok text)
    (parsed : ParsedSource.parse text = .ok source)
    (alone : ∀ declaration ∈ source.imports,
      Setting.leavesAlone ⟨config, tree⟩ (tree.normalize file) declaration = true)
    (hoistsNothing : config.HoistsNothing source) :
    ∃ remarks outcome,
      merge config tree file = (remarks, .ok outcome) ∧
        outcome.modules = [] ∧
        outcome.text = Text.normalizeBlankLines (Text.terminated text.respaced) := by
  rw [merge, valid]
  exact Setting.exists_mergeAt_of_leavesAlone python readable parsed hoistsNothing alone

/-- A main file with line ends of both kinds, an import of language features, one that leads out of
the library and one that leads nowhere, and a last line that is not ended. -/
def unendedText : Text :=
  ("#!/bin/x\r\n\r\n\nfrom __future__ import annotations\nimport os\r\nfrom lib.gone import f\n" ++
    "  \n\n\nx = 1; y = 2  # z").toList

/-- The directory with that file alone. -/
def unendedTree : FileTree :=
  (FileTree.empty ⟨["w".toList]⟩).put ⟨["w".toList, "main.py".toList]⟩ (.text unendedText)

/-- A configuration in which the file may have faults, and imports of language features stay. -/
def stayingConfig : MergeConfig :=
  { hoistFutureImports := false, lenientFixtures := ["main.py"] }

theorem merge_unendedTree_without_library_imports :
    ∃ remarks outcome,
      merge stayingConfig unendedTree (.ofString "main.py") = (remarks, .ok outcome) ∧
        outcome.modules = [] ∧
        outcome.text =
          ("#!/bin/x\nfrom __future__ import annotations\nimport os\nfrom lib.gone import f\n" ++
            "\nx = 1; y = 2  # z\n").toList := by
  have facts : ∃ source,
      ParsedSource.parse unendedText = .ok source ∧
        ∀ declaration ∈ source.imports,
          Setting.leavesAlone ⟨stayingConfig, unendedTree⟩
            (unendedTree.normalize (.ofString "main.py")) declaration = true := by
    refine ⟨(ParsedSource.parse unendedText).toOption.getD default, ?_⟩
    decide +kernel
  obtain ⟨source, parsed, alone⟩ := facts
  obtain ⟨remarks, outcome, merged, modules, text⟩ :=
    merge_without_library_imports (by decide +kernel) (by decide +kernel) (by decide +kernel)
      parsed alone (fun hoists => nomatch hoists)
  refine ⟨remarks, outcome, merged, modules, ?_⟩
  rw [text]
  decide +kernel

end Inliner
