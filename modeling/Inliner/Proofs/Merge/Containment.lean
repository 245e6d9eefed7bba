import Inliner.Proofs.Merge.Lookups
import Inliner.Proofs.Source.ModulePaths
import Inliner.Proofs.Walk.Reads

/-!
# A merge stays in the workspace

An import is looked up below the library directory, below the directory of the importing file, or
below a directory further up that still lies in the workspace.  A module path leads down from there.
So if the main file lies below the workspace root, all the files that are read do.
-/

namespace Inliner

/-! ## Below a location -/

namespace Location

theorem descend_cons (location : Location) (name : Text) (names : List Text) :
    location.descend (name :: names) = (location.child name).descend names := by
  simp [descend, child]

theorem descend_concat (location : Location) (names : List Text) (name : Text) :
    location.descend (names ++ [name]) = (location.descend names).child name := by
  simp [descend, child]

/-- The location lies below another one: at least one name leads down to it. -/
def IsBelow (top location : Location) : Prop :=
  ∃ names, names ≠ [] ∧ location = top.descend names

theorem isBelow_of_prefix
    {top location : Location}
    (within : top.names <+: location.names)
    (different : location ≠ top) :
    top.IsBelow location := by
  obtain ⟨names, spelled⟩ := within
  refine ⟨names, ?_, congrArg Location.mk spelled.symm⟩
  rintro rfl
  apply different
  rw [List.append_nil] at spelled
  exact congrArg Location.mk spelled.symm

theorem IsBelow.isPrefix
    {top location : Location}
    (below : top.IsBelow location) :
    top.names <+: location.names := by
  obtain ⟨names, _, rfl⟩ := below
  exact List.prefix_append top.names names

theorem IsBelow.of_prefix
    {top base location : Location}
    (within : top.names <+: base.names)
    (below : base.IsBelow location) :
    top.IsBelow location := by
  obtain ⟨more, spelled⟩ := within
  obtain ⟨names, nonempty, rfl⟩ := below
  refine ⟨more ++ names, by simp [nonempty], ?_⟩
  rw [descend, descend, ← spelled, List.append_assoc]

/-- The directory of what lies below a location is in it. -/
theorem IsBelow.exists_directory
    {top location : Location}
    (below : top.IsBelow location) :
    ∃ (directory : Location) (name : Text),
      location = directory.child name ∧ top.names <+: directory.names := by
  obtain ⟨names, nonempty, rfl⟩ := below
  rcases List.eq_nil_or_concat names with rfl | ⟨front, last, rfl⟩
  · exact absurd rfl nonempty
  · refine ⟨top.descend front, last, ?_, List.prefix_append top.names front⟩
    rw [List.concat_eq_append, descend_concat]

end Location

/-! ## Module files -/

/-- A segment can be the name of a file or a directory. -/
def IsName (segment : String) : Prop :=
  segment.toList ≠ [] ∧ '.' ∉ segment.toList ∧ '/' ∉ segment.toList

theorem Component.ofPiece?_of_not_mem
    {name : Text}
    (nonempty : name ≠ [])
    (noDot : '.' ∉ name) :
    Component.ofPiece? name = some (.normal name) := by
  have noDots {dots : Text} (member : '.' ∈ dots) : name ≠ dots := by
    rintro rfl
    exact noDot member
  rw [ofPiece?, if_neg, if_neg]
  · exact noDots (by simp)
  · rintro (empty | dot)
    · exact nonempty empty
    · exact noDots (by simp) dot

theorem Component.ofPiece?_of_extension
    {name : Text}
    (extension : Text)
    (nonempty : name ≠ [])
    (noDot : '.' ∉ name) :
    Component.ofPiece? (name ++ '.' :: extension) = some (.normal (name ++ '.' :: extension)) := by
  obtain ⟨first, rest, rfl⟩ := List.exists_cons_of_ne_nil nonempty
  have notDot : first ≠ '.' := by
    rintro rfl
    exact noDot List.mem_cons_self
  simp [ofPiece?, notDot]

namespace Resolver

variable {resolver : Resolver}

theorem foldl_join_path
    {base : Location}
    {segments : List String}
    (plain : base.IsPlain)
    (named : ∀ segment ∈ segments, IsName segment) :
    (base.descend (segments.map String.toList)).IsPlain ∧
      segments.foldl (fun path segment => path.join (.ofString segment)) base.path =
        (base.descend (segments.map String.toList)).path := by
  induction segments generalizing base with
  | nil =>
      have same : base.descend [] = base := by simp [Location.descend]
      exact ⟨same.symm ▸ plain, congrArg Location.path same.symm⟩
  | cons segment segments inductionHypothesis =>
      obtain ⟨⟨nonempty, noDot, noSlash⟩, restNamed⟩ := List.forall_mem_cons.mp named
      have childPlain : (base.child segment.toList).IsPlain :=
        plain.child noSlash (Component.ofPiece?_of_not_mem nonempty noDot)
      rw [List.map_cons, Location.descend_cons, List.foldl_cons]
      have joined : base.path.join (.ofString segment) = (base.child segment.toList).path :=
        Location.join_path childPlain
      rw [joined]
      exact inductionHypothesis childPlain restNamed

/-- The location of a module file below a directory: its segments lead down to it, and the last one
is its name without the extension. -/
def moduleLocation (resolver : Resolver) (base : Location) (front : List String) (last : String) :
    Location :=
  (base.descend (front.map String.toList)).child (last.toList ++ '.' :: resolver.extension)

theorem moduleFile_path
    {base : Location}
    {front : List String}
    {last : String}
    (extended : resolver.extension ≠ [] ∧ '/' ∉ resolver.extension)
    (plain : base.IsPlain)
    (named : ∀ segment ∈ front ++ [last], IsName segment) :
    (resolver.moduleLocation base front last).IsPlain ∧
      resolver.moduleFile base.path (front ++ [last]) =
        (resolver.moduleLocation base front last).path := by
  obtain ⟨lastNonempty, noDot, noSlash⟩ := named last (by simp)
  obtain ⟨wholePlain, joined⟩ := foldl_join_path plain named
  rw [List.map_append, List.map_singleton, Location.descend_concat] at wholePlain joined
  constructor
  · apply (Location.isPlain_child_iff.mp wholePlain).1.child
    · simp [noSlash, extended.2]
    · exact Component.ofPiece?_of_extension resolver.extension lastNonempty noDot
  · rw [moduleFile, joined]
    exact Location.withExtension_path_child wholePlain noDot extended.1

/-- The file of a module lies below the directory from which it is looked up. -/
theorem exists_moduleFile
    {base : Location}
    {segments : List String}
    (extended : resolver.extension ≠ [] ∧ '/' ∉ resolver.extension)
    (plain : base.IsPlain)
    (nonempty : segments ≠ [])
    (named : ∀ segment ∈ segments, IsName segment) :
    ∃ location : Location,
      base.IsBelow location ∧
        location.IsPlain ∧
        resolver.moduleFile base.path segments = location.path := by
  obtain ⟨front, last, isWhole⟩ := (List.eq_nil_or_concat segments).resolve_left nonempty
  rw [List.concat_eq_append] at isWhole
  subst isWhole
  refine ⟨resolver.moduleLocation base front last, ?_, moduleFile_path extended plain named⟩
  rw [moduleLocation, ← Location.descend_concat]
  exact ⟨_, by simp, rfl⟩

end Resolver

/-! ## Lookups -/

namespace Lookup

/-- The paths that a lookup may look at. -/
def paths : Lookup → List Path
  | .nowhere _ => []
  | .required path => [path]
  | .probed first second => [first, second]

theorem mem_paths_of_mem_probes
    {tree : FileTree}
    {lookup : Lookup}
    {path : Path}
    (member : path ∈ lookup.probes tree) :
    path ∈ lookup.paths := by
  cases lookup with
  | nowhere reason => cases member
  | required other => exact member
  | probed first second =>
      simp only [probes] at member
      split at member
      · exact List.mem_cons.mpr (.inl (List.mem_singleton.mp member))
      · exact member

/-- Everything that a lookup may look at lies below a location. -/
def StaysBelow (top : Location) (lookup : Lookup) : Prop :=
  ∀ path ∈ lookup.paths,
    ∃ location : Location, top.IsBelow location ∧ location.IsPlain ∧ path = location.path

theorem StaysBelow.target
    {top target : Location}
    {tree : FileTree}
    {lookup : Lookup}
    (noLinks : tree.links = [])
    (stays : lookup.StaysBelow top)
    (leads : lookup.resolution tree = .library target) :
    top.IsBelow target ∧ target.IsPlain := by
  obtain ⟨path, probed, _, rfl⟩ := exists_probe_of_resolution leads
  obtain ⟨location, below, plain, rfl⟩ := stays path (mem_paths_of_mem_probes probed)
  rw [Location.normalize_path noLinks plain]
  exact ⟨below, plain⟩

end Lookup

namespace Resolver

variable {resolver : Resolver}

/-- What a valid configuration gives: the library lies in the workspace, and the extension can end
the name of a file. -/
structure Confined (resolver : Resolver) : Prop where
  workspacePlain : resolver.workspaceRoot.IsPlain
  libraryPlain : resolver.libraryRoot.IsPlain
  libraryWithin : resolver.workspaceRoot.names <+: resolver.libraryRoot.names
  extended : resolver.extension ≠ [] ∧ '/' ∉ resolver.extension

theorem confined_ofConfig
    {config : MergeConfig}
    {tree : FileTree}
    (valid : config.validate tree = .ok ()) :
    (ofConfig config tree).Confined := by
  have isValid := MergeConfig.isValid_of_validate valid
  obtain ⟨nonempty, noSlash, _⟩ := Setting.not_mem_of_ofExtension isValid.python
  exact ⟨tree.isPlain_normalize _, tree.isPlain_normalize _, isValid.libraryWithin, nonempty,
    noSlash⟩

section Below

variable (confined : resolver.Confined)
include confined

theorem staysBelow_libraryLookup
    {segments : List String}
    (named : ∀ segment ∈ segments, IsName segment) :
    (resolver.libraryLookup segments).StaysBelow resolver.workspaceRoot := by
  unfold libraryLookup
  split
  · intro path impossible
    cases impossible
  next nonempty =>
    intro path member
    obtain ⟨location, below, plain, isFile⟩ :=
      exists_moduleFile confined.extended confined.libraryPlain (by simpa using nonempty) named
    refine ⟨location, below.of_prefix confined.libraryWithin, plain, ?_⟩
    rw [List.mem_singleton.mp member, isFile]

theorem staysBelow_relativeLookup
    {directory : Location}
    {module : ModulePath}
    (plain : directory.IsPlain)
    (named : ∀ segment ∈ module.segments, IsName segment) :
    (resolver.relativeLookup directory.path module).StaysBelow resolver.workspaceRoot := by
  have nowhere (reason : MissingReason) :
      (Lookup.nowhere reason).StaysBelow resolver.workspaceRoot :=
    fun _ impossible => nomatch impossible
  unfold relativeLookup
  split
  next => exact nowhere _
  next base ascends =>
    obtain ⟨_, rfl, basePlain⟩ := ascend_path plain ascends
    split
    next => exact nowhere _
    next inside =>
      -- However far up the import goes, the base has just been found to lie in the workspace.
      rw [Bool.not_not_eq, Location.isWithin_path_iff basePlain confined.workspacePlain] at inside
      split
      next => exact nowhere _
      next nonempty =>
        split
        next rest found =>
          apply staysBelow_libraryLookup confined
          intro segment member
          apply named
          apply (List.dropWhile_sublist _).mem
          rw [found]
          exact List.mem_cons_of_mem _ member
        next =>
          intro path member
          obtain ⟨location, below, locationPlain, isFile⟩ :=
            exists_moduleFile confined.extended basePlain (by simpa using nonempty) named
          refine ⟨location, below.of_prefix inside, locationPlain, ?_⟩
          rw [List.mem_singleton.mp member, isFile]

theorem staysBelow_absoluteLookup
    {directory : Location}
    {segments : List String}
    (plain : directory.IsPlain)
    (within : resolver.workspaceRoot.names <+: directory.names)
    (nonempty : segments ≠ [])
    (named : ∀ segment ∈ segments, IsName segment) :
    (resolver.absoluteLookup directory.path segments).StaysBelow resolver.workspaceRoot := by
  have probed :
      (Lookup.probed (resolver.moduleFile resolver.libraryRoot.path segments)
        (resolver.moduleFile directory.path segments)).StaysBelow resolver.workspaceRoot := by
    intro path member
    rcases List.mem_cons.mp member with rfl | second
    · obtain ⟨location, below, locationPlain, isFile⟩ :=
        exists_moduleFile confined.extended confined.libraryPlain nonempty named
      exact ⟨location, below.of_prefix confined.libraryWithin, locationPlain, isFile⟩
    · obtain ⟨location, below, locationPlain, isFile⟩ :=
        exists_moduleFile confined.extended plain nonempty named
      rw [List.mem_singleton.mp second]
      exact ⟨location, below.of_prefix within, locationPlain, isFile⟩
  unfold absoluteLookup
  split
  next head rest =>
    split
    next =>
      apply staysBelow_libraryLookup confined
      exact fun segment member => named segment (List.mem_cons_of_mem head member)
    next => exact probed
  next => exact probed

/-- Whatever a file below the workspace root imports is looked up below it. -/
theorem staysBelow_lookup
    {importer : Location}
    {module : ModulePath}
    (plain : importer.IsPlain)
    (below : resolver.workspaceRoot.IsBelow importer)
    (written : module.IsWritten)
    (noSlash : ∀ segment ∈ module.segments, '/' ∉ segment.toList) :
    (resolver.lookup importer.path module).StaysBelow resolver.workspaceRoot := by
  have named : ∀ segment ∈ module.segments, IsName segment := fun segment member =>
    ⟨(written.segments segment member).nonempty, (written.segments segment member).noDot,
      noSlash segment member⟩
  obtain ⟨directory, name, rfl, within⟩ := below.exists_directory
  have directoryPlain := (Location.isPlain_child_iff.mp plain).1
  unfold lookup
  rw [Location.parent?_path_child plain]
  dsimp only [Option.getD_some]
  split
  next => exact staysBelow_relativeLookup confined directoryPlain named
  next absolute =>
    have nonempty := written.absolute (by simpa using absolute)
    exact staysBelow_absoluteLookup confined directoryPlain within nonempty named

end Below

/-- A relative import leads to a module file only if the directory that it starts from lies in the
workspace. -/
theorem within_of_resolve
    {tree : FileTree}
    {importer target : Location}
    {name : Text}
    {module : ModulePath}
    (plain : (importer.child name).IsPlain)
    (relative : module.isRelative = true)
    (leads : resolver.resolve tree (importer.child name).path module = .library target) :
    module.level - 1 ≤ importer.names.length ∧
      (importer.up (module.level - 1)).path.isWithin resolver.workspaceRoot.path = true := by
  unfold resolve resolveRelative at leads
  rw [Location.parent?_path_child plain] at leads
  dsimp only [Option.getD_some] at leads
  rw [if_pos relative] at leads
  split at leads
  next => cases leads
  next base ascends =>
    obtain ⟨enough, rfl, _⟩ := ascend_path (Location.isPlain_child_iff.mp plain).1 ascends
    split at leads
    next => cases leads
    next inside => exact ⟨enough, by simpa using inside⟩

end Resolver

/-! ## The files that are read -/

namespace Setting

variable {setting : Setting} {main location : Location}

/-- What a file leads to is what one of its imports leads to. -/
theorem exists_import_of_mem_targets
    {target : Location}
    (member : target ∈ setting.targets location) :
    ∃ source,
      setting.tree.parsedAt? location = some source ∧
        ∃ declaration ∈ source.imports,
          setting.resolver.resolve setting.tree location.path declaration.module =
            .library target := by
  unfold targets at member
  cases parsed : setting.tree.parsedAt? location with
  | none =>
      rw [parsed] at member
      cases member
  | some source =>
      rw [parsed] at member
      obtain ⟨declaration, isImport, found⟩ := List.mem_filterMap.mp member
      refine ⟨source, rfl, declaration, isImport, ?_⟩
      split at found
      next leads =>
        rw [leads, Option.some.inj found]
      next => cases found
      next => cases found

/-- The segments of the imports of a file are without slashes. -/
def SlashFree (setting : Setting) (location : Location) : Prop :=
  ∀ source ∈ setting.tree.parsedAt? location,
    ∀ declaration ∈ source.imports, ∀ segment ∈ declaration.module.segments,
      '/' ∉ segment.toList

instance (setting : Setting) (location : Location) : Decidable (setting.SlashFree location) :=
  inferInstanceAs (Decidable (∀ source ∈ setting.tree.parsedAt? location, _))

theorem isBelow_of_reachable
    (noLinks : setting.tree.links = [])
    (confined : setting.resolver.Confined)
    (slashFree : ∀ location, setting.Reachable main location → setting.SlashFree location)
    (mainPlain : main.IsPlain)
    (mainBelow : setting.workspaceRoot.IsBelow main)
    (reachable : setting.Reachable main location) :
    setting.workspaceRoot.IsBelow location ∧ location.IsPlain := by
  -- It is carried along that a file is not the workspace root itself: only then does its directory,
  -- in which an absolute import may look, lie in the workspace.
  induction reachable with
  | main => exact ⟨mainBelow, mainPlain⟩
  | follow reached imported inductionHypothesis =>
      obtain ⟨below, plain⟩ := inductionHypothesis
      obtain ⟨source, parsed, declaration, isImport, leads⟩ :=
        exists_import_of_mem_targets imported
      obtain ⟨text, analysed⟩ := FileTree.exists_parse_of_parsedAt? parsed
      have written := ParsedSource.isWritten_of_mem_imports analysed isImport
      have noSlash := slashFree _ reached source parsed declaration isImport
      rw [Resolver.resolve_eq] at leads
      exact (Resolver.staysBelow_lookup confined plain below written noSlash).target noLinks leads

end Setting

/-- Without links, with a valid configuration and a main file below the workspace root, every file
that is read lies in the workspace, and so does every module of the outcome, as long as no segment
of an import that is followed has a slash in it.  A relative import leads to a module file only if
the directory that it starts from, some levels up from the importing file, still lies in the
workspace. -/
theorem merge_stays_in_workspace
    {config : MergeConfig}
    {tree : FileTree}
    {file : Path}
    (noLinks : tree.links = [])
    (valid : config.validate tree = .ok ())
    (inside :
      (tree.normalize file).path.isWithin (config.workspaceLocation tree).path = true)
    (notRoot : tree.normalize file ≠ config.workspaceLocation tree)
    (slashFree : ∀ location,
      Setting.Reachable ⟨config, tree⟩ (tree.normalize file) location →
        Setting.SlashFree ⟨config, tree⟩ location) :
    (∀ location ∈ Setting.reads ⟨config, tree⟩ (tree.normalize file),
        location.path.isWithin (config.workspaceLocation tree).path = true) ∧
      (∀ remarks outcome,
        merge config tree file = (remarks, .ok outcome) →
          ∀ path ∈ outcome.modules,
            path.isWithin (config.workspaceLocation tree).path = true) ∧
      ∀ importer module target,
        tree.isFile importer = true →
          module.isRelative = true →
            (Resolver.ofConfig config tree).resolve tree (tree.normalize importer).path module =
                .library target →
              module.level - 1 ≤ (tree.normalize importer).parent.names.length ∧
                ((tree.normalize importer).parent.up (module.level - 1)).path.isWithin
                    (config.workspaceLocation tree).path =
                  true := by
  have confined : (Setting.resolver ⟨config, tree⟩).Confined := Resolver.confined_ofConfig valid
  have rootPlain : (config.workspaceLocation tree).IsPlain := confined.workspacePlain
  have mainPlain := tree.isPlain_normalize file
  have mainBelow : (config.workspaceLocation tree).IsBelow (tree.normalize file) := by
    rw [Location.isWithin_path_iff mainPlain rootPlain] at inside
    exact Location.isBelow_of_prefix inside notRoot
  have readsWithin :
      ∀ location ∈ Setting.reads ⟨config, tree⟩ (tree.normalize file),
        location.path.isWithin (config.workspaceLocation tree).path = true := by
    intro location read
    obtain ⟨below, plain⟩ :=
      Setting.isBelow_of_reachable noLinks confined slashFree mainPlain mainBelow
        (Setting.reachable_of_mem_reads read)
    rw [Location.isWithin_path_iff plain rootPlain]
    exact below.isPrefix
  refine ⟨readsWithin, ?_, ?_⟩
  · intro remarks outcome merged path member
    rw [merge, valid] at merged
    obtain ⟨location, read, rfl⟩ := Setting.exists_read_of_mem_modules merged member
    exact readsWithin location read
  · intro importer module target isFile relative leads
    have importerPlain := tree.isPlain_normalize importer
    obtain ⟨directory, name, isChild, _⟩ := FileTree.exists_child_of_isFile noLinks isFile
    rw [isChild] at leads importerPlain ⊢
    rw [Location.parent_child]
    exact Resolver.within_of_resolve importerPlain relative leads

/-- A main file in a directory that imports a module of the directory above, which imports the one
beside it. -/
def nestedTree : FileTree :=
  .ofTexts ["w"]
    [(["w", "app", "main.py"], "from ..shared import f\nf()\n"),
      (["w", "shared.py"], "from beside import g\ndef f(): g()\n"),
      (["w", "beside.py"], "def g(): pass\n")]

theorem merge_stays_in_workspace_nestedTree :
    nestedTree.links = [] ∧
      (∀ location ∈ Setting.reads ⟨{}, nestedTree⟩ (nestedTree.normalize (.ofString "app/main.py")),
        location.path.isWithin (.ofString "/w") = true) ∧
      ∃ remarks outcome,
        merge {} nestedTree (.ofString "app/main.py") = (remarks, .ok outcome) ∧
          outcome.modules = [.ofString "/w/beside.py", .ofString "/w/shared.py"] ∧
          ∀ path ∈ outcome.modules, path.isWithin (.ofString "/w") = true := by
  have noLinks : nestedTree.links = [] := by decide +kernel
  have valid : MergeConfig.validate {} nestedTree = .ok () := by decide +kernel
  have root : (MergeConfig.workspaceLocation {} nestedTree).path = .ofString "/w" := by
    decide +kernel
  have inside :
      (nestedTree.normalize (.ofString "app/main.py")).path.isWithin
          (MergeConfig.workspaceLocation {} nestedTree).path =
        true := by
    decide +kernel
  have notRoot :
      nestedTree.normalize (.ofString "app/main.py") ≠
        MergeConfig.workspaceLocation {} nestedTree := by
    decide +kernel
  have facts :
      ∃ known : List Location,
        nestedTree.normalize (.ofString "app/main.py") ∈ known ∧
          (∀ location ∈ known, ∀ target ∈ Setting.targets ⟨{}, nestedTree⟩ location,
            target ∈ known) ∧
          ∀ location ∈ known, Setting.SlashFree ⟨{}, nestedTree⟩ location := by
    refine ⟨[["w", "app", "main.py"], ["w", "shared.py"], ["w", "beside.py"]].map
      fun names => ⟨names.map (·.toList)⟩, ?_⟩
    decide +kernel
  obtain ⟨known, hasMain, closed, slashFree⟩ := facts
  have stays :=
    merge_stays_in_workspace noLinks valid inside notRoot fun location reachable =>
      slashFree location (reachable.mem_of_closed hasMain closed)
  have evaluated :
      ∃ outcome,
        mergeWithin 12 {} nestedTree (.ofString "app/main.py") = some outcome ∧
          outcome.modules = [.ofString "/w/beside.py", .ofString "/w/shared.py"] := by
    refine ⟨(mergeWithin 12 {} nestedTree (.ofString "app/main.py")).getD ⟨[], ⟨[]⟩, [], []⟩, ?_⟩
    decide +kernel
  obtain ⟨outcome, found, modules⟩ := evaluated
  obtain ⟨remarks, merged⟩ := merge_eq_of_mergeWithin 12 found
  rw [root] at stays
  exact ⟨noLinks, stays.1, remarks, outcome, merged, modules,
    stays.2.1 remarks outcome merged⟩

/-- A main file that imports the module beside it. -/
def flatTree : FileTree :=
  .ofTexts ["w"] [(["w", "main.py"], "import helper\n"), (["w", "helper.py"], "x = 1\n")]

/-- A configuration whose workspace root is that main file. -/
def fileRootConfig : MergeConfig :=
  { workspaceRoot := .ofString "main.py", libraryRoot := .ofString "lib" }

/-- The workspace root lies in the workspace itself, but what stands beside it does not: a main file
that is the workspace root leads out of it. -/
theorem merge_leaves_fileRoot :
    flatTree.links = [] ∧
      fileRootConfig.validate flatTree = .ok () ∧
      (flatTree.normalize (.ofString "main.py")).path.isWithin
          (fileRootConfig.workspaceLocation flatTree).path =
        true ∧
      (∀ location,
        Setting.Reachable ⟨fileRootConfig, flatTree⟩ (flatTree.normalize (.ofString "main.py"))
            location →
          Setting.SlashFree ⟨fileRootConfig, flatTree⟩ location) ∧
      ∃ remarks outcome path,
        merge fileRootConfig flatTree (.ofString "main.py") = (remarks, .ok outcome) ∧
          path ∈ outcome.modules ∧
          path.isWithin (fileRootConfig.workspaceLocation flatTree).path = false := by
  refine ⟨by decide +kernel, by decide +kernel, by decide +kernel, ?_, ?_⟩
  · have facts :
        ∃ known : List Location,
          flatTree.normalize (.ofString "main.py") ∈ known ∧
            (∀ location ∈ known, ∀ target ∈ Setting.targets ⟨fileRootConfig, flatTree⟩ location,
              target ∈ known) ∧
            ∀ location ∈ known, Setting.SlashFree ⟨fileRootConfig, flatTree⟩ location := by
      refine ⟨[["w", "main.py"], ["w", "helper.py"]].map fun names => ⟨names.map (·.toList)⟩, ?_⟩
      decide +kernel
    obtain ⟨known, hasMain, closed, slashFree⟩ := facts
    intro location reachable
    exact slashFree location (reachable.mem_of_closed hasMain closed)
  · have evaluated :
        ∃ outcome,
          mergeWithin 12 fileRootConfig flatTree (.ofString "main.py") = some outcome ∧
            .ofString "/w/helper.py" ∈ outcome.modules := by
      refine ⟨(mergeWithin 12 fileRootConfig flatTree (.ofString "main.py")).getD
        ⟨[], ⟨[]⟩, [], []⟩, ?_⟩
      decide +kernel
    obtain ⟨outcome, found, member⟩ := evaluated
    obtain ⟨remarks, merged⟩ := merge_eq_of_mergeWithin 12 found
    exact ⟨remarks, outcome, .ofString "/w/helper.py", merged, member, by decide +kernel⟩

end Inliner
