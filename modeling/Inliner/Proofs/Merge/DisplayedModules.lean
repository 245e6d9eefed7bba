import Inliner.Proofs.Merge.Inspection
import Inliner.Proofs.Source.ModulePaths

/-!
# Modules by their texts

The text of a module path can be read back: its leading dots count the level, and the rest is cut at
its dots.  Nothing is lost, since no segment is empty, has a dot in it or has white space around it.
So two module paths with one text are the same, and the module text in a report or in an error tells
which module the import names, and with the importing file where it leads.
-/

namespace Inliner

/-! ## Reading the text of a path back -/

namespace ModulePath

/-- The path that a text displays: as many levels as there are dots at its start, then the segments
of the rest. -/
def ofDisplay (text : Text) : ModulePath :=
  relative (text.takeWhile (· = '.')).length (text.dropWhile (· = '.'))

/-- Segments with dots between them are found again. -/
theorem splitSegments_joinWith
    {segments : List String}
    (allSegments : ∀ segment ∈ segments, IsSegment segment) :
    splitSegments (Text.joinWith ['.'] (segments.map String.toList)) = segments := by
  by_cases none : segments = []
  · rw [none]
    rfl
  · have pieces :
        Text.splitAt '.' (Text.joinWith ['.'] (segments.map String.toList)) =
          segments.map String.toList := by
      apply Text.splitAt_joinWith (by simpa using none)
      intro piece member
      obtain ⟨segment, isMember, rfl⟩ := List.mem_map.mp member
      exact (allSegments segment isMember).noDot
    have trimmed :
        (segments.map String.toList).map Text.trim = segments.map String.toList := by
      rw [List.map_map]
      exact List.map_congr_left fun segment member => (allSegments segment member).trimmed
    have kept :
        (segments.map String.toList).filter (!·.isEmpty) = segments.map String.toList := by
      rw [List.filter_eq_self]
      intro piece member
      obtain ⟨segment, isMember, rfl⟩ := List.mem_map.mp member
      simpa using (allSegments segment isMember).nonempty
    rw [splitSegments, pieces, trimmed, kept, List.map_map]
    exact List.map_id'' (fun segment => String.ofList_toList) segments

theorem isSegment_of_mem_relative
    {level : Nat}
    {dotted : Text}
    {segment : String}
    (member : segment ∈ (relative level dotted).segments) :
    IsSegment segment :=
  isSegment_of_mem_splitSegments member

section Segments

variable {path : ModulePath} (allSegments : ∀ segment ∈ path.segments, IsSegment segment)
include allSegments

theorem relative_dotted : relative path.level path.dotted = path := by
  rw [relative, dotted, splitSegments_joinWith allSegments]

/-- What follows the leading dots of a path does not start with a dot. -/
theorem head?_dotted_ne : path.dotted.head? ≠ some '.' := by
  obtain ⟨level, segments⟩ := path
  intro isDot
  cases segments with
  | nil => cases isDot
  | cons segment more =>
      obtain ⟨nonempty, noDot, _⟩ := allSegments segment List.mem_cons_self
      have starts : ∃ rest, dotted ⟨level, segment :: more⟩ = segment.toList ++ rest := by
        cases more with
        | nil => exact ⟨[], (List.append_nil _).symm⟩
        | cons next more => exact ⟨_, List.append_assoc _ _ _⟩
      obtain ⟨rest, starts⟩ := starts
      rw [starts, List.head?_append_of_ne_nil _ nonempty] at isDot
      exact noDot (List.mem_of_mem_head? isDot)

theorem ofDisplay_display : ofDisplay path.display = path := by
  have dots : ∀ character ∈ List.replicate path.level '.', decide (character = '.') = true := by
    intro character member
    rw [List.eq_of_mem_replicate member]
    rfl
  -- The dots of the level are told from those between segments: no segment is empty.
  have ends :
      path.dotted.takeWhile (· = '.') = [] ∧ path.dotted.dropWhile (· = '.') = path.dotted := by
    cases rest : path.dotted with
    | nil => exact ⟨rfl, rfl⟩
    | cons first more =>
        have noDot : ¬ decide (first = '.') = true := by
          intro isDot
          apply head?_dotted_ne allSegments
          rw [rest, of_decide_eq_true isDot]
          rfl
        exact ⟨List.takeWhile_cons_of_neg noDot, List.dropWhile_cons_of_neg noDot⟩
  rw [ofDisplay, display, List.takeWhile_append_of_pos dots, List.dropWhile_append_of_pos dots,
    ends.1, ends.2, List.append_nil, List.length_replicate, relative_dotted allSegments]

theorem eq_of_display_eq
    {other : ModulePath}
    (allOthers : ∀ segment ∈ other.segments, IsSegment segment)
    (same : path.display = other.display) :
    path = other := by
  rw [← ofDisplay_display allSegments, same, ofDisplay_display allOthers]

end Segments

end ModulePath

/-! ## What reports and errors tell -/

/-- The module that an import of a file names is read back from the text in its report. -/
theorem Setting.ofDisplay_module_reportOf
    {setting : Setting}
    {location : Location}
    {source : ParsedSource}
    {declaration : ImportDeclaration}
    (parsed : setting.tree.parsedAt? location = some source)
    (member : declaration ∈ source.imports) :
    ModulePath.ofDisplay (setting.reportOf location declaration).module.toList =
      declaration.module := by
  obtain ⟨text, analysed⟩ := FileTree.exists_parse_of_parsedAt? parsed
  rw [reportOf, String.toList_ofList]
  exact ModulePath.ofDisplay_display
    (ParsedSource.isWritten_of_mem_imports analysed member).segments

variable {config : MergeConfig} {tree : FileTree} {file : Path}

/-- What is told of a file is told of each of its imports, in order. -/
theorem exists_source_of_inspectImports
    {reports : List ImportReport}
    (told : inspectImports config tree file = .ok reports) :
    ∃ source,
      tree.parsedAt? (tree.normalize file) = some source ∧
        reports = source.imports.map (Setting.reportOf ⟨config, tree⟩ (tree.normalize file)) := by
  unfold inspectImports at told
  split at told
  next => cases told
  next =>
    dsimp only at told
    split at told
    next => cases told
    next =>
      split at told
      next => cases told
      next text readable =>
        split at told
        next => cases told
        next source analysed =>
          exact ⟨source, FileTree.parsedAt?_of_parse readable analysed, (Except.ok.inj told).symm⟩

namespace Setting

/-- The import is the first one of a file that leads nowhere, and this is why. -/
structure FirstMissing
    (setting : Setting)
    (location : Location)
    (declaration : ImportDeclaration)
    (reason : MissingReason) : Prop where
  resolution :
    setting.resolver.resolve setting.tree location.path declaration.module = .missing reason
  first : ∃ source earlier later,
    setting.tree.parsedAt? location = some source ∧
      source.imports = earlier ++ declaration :: later ∧
      ∀ other ∈ earlier, ∀ otherReason,
        setting.resolver.resolve setting.tree location.path other.module ≠ .missing otherReason

/-- If the fault of a file is a missing module, the error tells its first import that leads
nowhere. -/
theorem exists_firstMissing_of_fault?
    {setting : Setting}
    {location importer : Location}
    {module : String}
    {line : Nat}
    {reason : MissingReason}
    (fault : setting.fault? location = some (.missingLibrary module importer line reason)) :
    ∃ declaration,
      setting.FirstMissing importer declaration reason ∧
        module = (setting.reportOf importer declaration).module ∧
        declaration.line = line := by
  unfold fault? at fault
  split at fault
  next => cases fault
  next =>
    split at fault
    next => cases fault
    next text readable =>
      split at fault
      next => cases fault
      next =>
        split at fault
        next => cases fault
        next source analysed =>
          obtain ⟨earlier, declaration, later, isSplit, isMissing, noneEarlier⟩ :=
            List.findSome?_eq_some_iff.mp fault
          unfold missing? at isMissing
          split at isMissing
          next otherReason leadsNowhere =>
            obtain ⟨rfl, rfl, rfl, rfl⟩ := MergeError.missingLibrary.inj (Option.some.inj isMissing)
            have parsed := FileTree.parsedAt?_of_parse readable analysed
            have leads (other : ImportDeclaration) (member : other ∈ earlier) :=
              missing?_eq_none_iff.mp (noneEarlier other member)
            have isFirst : setting.FirstMissing location declaration otherReason :=
              ⟨leadsNowhere, source, earlier, later, parsed, isSplit, leads⟩
            exact ⟨declaration, isFirst, rfl, rfl⟩
          next => cases isMissing
          next => cases isMissing

end Setting

/-- If a merge fails with a missing module, the error tells the first import of the importing file
that leads nowhere. -/
theorem exists_firstMissing_of_merge
    {remarks : List Remark}
    {module : String}
    {importer : Location}
    {line : Nat}
    {reason : MissingReason}
    (failed :
      merge config tree file = (remarks, .error (.missingLibrary module importer line reason))) :
    ∃ declaration,
      Setting.FirstMissing ⟨config, tree⟩ importer declaration reason ∧
        module = (Setting.reportOf ⟨config, tree⟩ importer declaration).module ∧
        declaration.line = line := by
  have targetsPlain :
      ∀ location, ∀ target ∈ Setting.targets ⟨config, tree⟩ location, target.IsPlain :=
    fun location target imported => Setting.isPlain_of_mem_targets imported
  cases valid : config.validate tree with
  | error error =>
      rw [merge, valid] at failed
      cases (Prod.mk.inj failed).2
  | ok =>
      rw [merge, valid] at failed
      rcases Setting.mergeAt_eq (tree.isPlain_normalize file) targetsPlain with
        ⟨_, _, succeeded, _⟩ | ⟨_, error, failedAt, fault⟩
      · rw [succeeded] at failed
        cases (Prod.mk.inj failed).2
      · rw [failedAt] at failed
        obtain rfl := Except.error.inj (Prod.mk.inj failed).2
        obtain ⟨location, _, isFault⟩ := List.exists_of_findSome?_eq_some fault
        exact Setting.exists_firstMissing_of_fault? isFault

/-- A module path is read back from its level and its dotted text, and from the text it is displayed
as.  So paths that are displayed alike are the same, and so are the modules of two imports, in
whatever files.  The texts in the reports on a file are read back as the modules that its imports
name, and so decide where these lead.  The text in the error of a merge is read back as the module
of the first import that leads nowhere, in the file and the line that the error tells. -/
theorem displayed_module_determines_import :
    (∀ level dotted,
      ModulePath.relative (ModulePath.relative level dotted).level
          (ModulePath.relative level dotted).dotted =
        ModulePath.relative level dotted) ∧
    (∀ level dotted,
      ModulePath.ofDisplay (ModulePath.relative level dotted).display =
        ModulePath.relative level dotted) ∧
    (∀ level dotted otherLevel otherDotted,
      (ModulePath.relative level dotted).display =
          (ModulePath.relative otherLevel otherDotted).display →
        (ModulePath.relative level dotted).level =
            (ModulePath.relative otherLevel otherDotted).level ∧
          (ModulePath.relative level dotted).segments =
            (ModulePath.relative otherLevel otherDotted).segments) ∧
    (∀ text source otherText otherSource,
      ParsedSource.parse text = .ok source → ParsedSource.parse otherText = .ok otherSource →
        ∀ declaration ∈ source.imports, ∀ other ∈ otherSource.imports,
          declaration.module.display = other.module.display →
            declaration.module = other.module) ∧
    (∀ config tree file reports,
      inspectImports config tree file = .ok reports →
        ∃ source,
          tree.parsedAt? (tree.normalize file) = some source ∧
          reports = source.imports.map (Setting.reportOf ⟨config, tree⟩ (tree.normalize file)) ∧
          (source.imports.map (·.module) =
            reports.map fun report => ModulePath.ofDisplay report.module.toList) ∧
          ∀ report ∈ reports,
            report.resolution =
              (Resolver.ofConfig config tree).resolve tree (tree.normalize file).path
                (ModulePath.ofDisplay report.module.toList)) ∧
    ∀ config tree file remarks module importer line reason,
      merge config tree file = (remarks, .error (.missingLibrary module importer line reason)) →
        ∃ declaration,
          Setting.FirstMissing ⟨config, tree⟩ importer declaration reason ∧
          declaration.line = line ∧
          declaration.module = ModulePath.ofDisplay module.toList := by
  refine ⟨?_, ?_, ?_, ?_, ?_, ?_⟩
  · intro level dotted
    exact ModulePath.relative_dotted fun _ => ModulePath.isSegment_of_mem_relative
  · intro level dotted
    exact ModulePath.ofDisplay_display fun _ => ModulePath.isSegment_of_mem_relative
  · intro level dotted otherLevel otherDotted same
    have samePath :=
      ModulePath.eq_of_display_eq (fun _ => ModulePath.isSegment_of_mem_relative)
        (fun _ => ModulePath.isSegment_of_mem_relative) same
    exact ⟨congrArg ModulePath.level samePath, congrArg ModulePath.segments samePath⟩
  · intro text source otherText otherSource analysed otherAnalysed declaration member other
      otherMember same
    have written := ParsedSource.isWritten_of_mem_imports analysed member
    have otherWritten := ParsedSource.isWritten_of_mem_imports otherAnalysed otherMember
    exact ModulePath.eq_of_display_eq written.segments otherWritten.segments same
  · intro config tree file reports told
    obtain ⟨source, parsed, rfl⟩ := exists_source_of_inspectImports told
    refine ⟨source, parsed, rfl, ?_, ?_⟩
    · rw [List.map_map]
      exact List.map_congr_left fun declaration member =>
        (Setting.ofDisplay_module_reportOf parsed member).symm
    · intro report member
      obtain ⟨declaration, isImport, rfl⟩ := List.mem_map.mp member
      rw [Setting.ofDisplay_module_reportOf parsed isImport]
      rfl
  · intro config tree file remarks module importer line reason failed
    obtain ⟨declaration, missing, rfl, sameLine⟩ := exists_firstMissing_of_merge failed
    obtain ⟨source, earlier, later, parsed, isSplit, _⟩ := missing.first
    have isImport : declaration ∈ source.imports :=
      isSplit ▸ List.mem_append_right earlier List.mem_cons_self
    exact ⟨declaration, missing, sameLine, (Setting.ofDisplay_module_reportOf parsed isImport).symm⟩

/-- A main file with imports from above the directory it is in. -/
def climbingTree : FileTree :=
  .ofTexts ["w"]
    [(["w", "main.py"], "import os . path\nfrom . . gone . deep import f\nfrom .. import g\n")]

theorem displayed_module_climbingTree_determines_import :
    (∃ reports source,
      inspectImports {} climbingTree (.ofString "main.py") = .ok reports ∧
        reports.map (·.module) = ["os.path", "..gone.deep", ".."] ∧
        climbingTree.parsedAt? ⟨["w".toList, "main.py".toList]⟩ = some source ∧
        source.imports.map (·.module) = [⟨0, ["os", "path"]⟩, ⟨2, ["gone", "deep"]⟩, ⟨2, []⟩]) ∧
    ∃ remarks declaration,
      merge {} climbingTree (.ofString "main.py") =
          (remarks,
            .error (.missingLibrary "..gone.deep" ⟨["w".toList, "main.py".toList]⟩ 2
              (.aboveWorkspace ⟨["w".toList]⟩))) ∧
        Setting.FirstMissing ⟨{}, climbingTree⟩ ⟨["w".toList, "main.py".toList]⟩ declaration
          (.aboveWorkspace ⟨["w".toList]⟩) ∧
        declaration.line = 2 ∧
        declaration.module = ⟨2, ["gone", "deep"]⟩ := by
  obtain ⟨_, _, _, _, tellsReports, tellsError⟩ := displayed_module_determines_import
  have isMain :
      climbingTree.normalize (.ofString "main.py") = ⟨["w".toList, "main.py".toList]⟩ := by
    decide +kernel
  refine ⟨?_, ?_⟩
  · have texts :
        (inspectImports {} climbingTree (.ofString "main.py")).map
            (fun reports => reports.map (·.module)) =
          .ok ["os.path", "..gone.deep", ".."] := by
      decide +kernel
    cases told : inspectImports {} climbingTree (.ofString "main.py") with
    | error error =>
        rw [told] at texts
        cases texts
    | ok reports =>
        rw [told] at texts
        obtain ⟨source, parsed, _, modules, _⟩ := tellsReports _ _ _ _ told
        have displayed : reports.map (·.module) = ["os.path", "..gone.deep", ".."] :=
          Except.ok.inj texts
        refine ⟨reports, source, rfl, displayed, isMain ▸ parsed, ?_⟩
        have readBack :
            (reports.map fun report => ModulePath.ofDisplay report.module.toList) =
              (reports.map (·.module)).map fun text => ModulePath.ofDisplay text.toList := by
          rw [List.map_map]
          rfl
        rw [modules, readBack, displayed]
        decide +kernel
  · have valid : MergeConfig.validate {} climbingTree = .ok () := by decide +kernel
    have fault :
        Setting.fault? ⟨{}, climbingTree⟩ (climbingTree.normalize (.ofString "main.py")) =
          some (.missingLibrary "..gone.deep" ⟨["w".toList, "main.py".toList]⟩ 2
            (.aboveWorkspace ⟨["w".toList]⟩)) := by
      decide +kernel
    obtain ⟨remarks, failed⟩ := Setting.mergeAt_of_fault? fault
    have merged :
        merge {} climbingTree (.ofString "main.py") =
          (remarks,
            .error (.missingLibrary "..gone.deep" ⟨["w".toList, "main.py".toList]⟩ 2
              (.aboveWorkspace ⟨["w".toList]⟩))) := by
      rw [merge, valid]
      exact failed
    obtain ⟨declaration, missing, sameLine, readBack⟩ := tellsError _ _ _ _ _ _ _ _ merged
    refine ⟨remarks, declaration, merged, missing, sameLine, readBack.trans ?_⟩
    decide +kernel

end Inliner
