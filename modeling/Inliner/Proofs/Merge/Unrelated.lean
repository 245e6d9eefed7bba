import Inliner.Proofs.File.Replacement
import Inliner.Proofs.Merge.Lookups
import Inliner.Proofs.Walk.Reads

/-!
# Files that a merge does not depend on

A merge depends on the files that can be reached from its main file, and on whether there is a file
at the paths at which their imports are looked up.  Whatever else two trees hold, they give the same
result if they agree on these.
-/

namespace Inliner

namespace Setting

/-- The paths at which the imports of a file are looked up, if it can be analysed. -/
def probes (setting : Setting) (location : Location) : List Path :=
  match setting.tree.parsedAt? location with
  | some source =>
      source.imports.flatMap fun declaration =>
        (setting.resolver.lookup location.path declaration.module).probes setting.tree
  | none => []

theorem mem_probes
    {setting : Setting}
    {location : Location}
    {source : ParsedSource}
    {declaration : ImportDeclaration}
    {path : Path}
    (parsed : setting.tree.parsedAt? location = some source)
    (isImport : declaration ∈ source.imports)
    (probed : path ∈
      (setting.resolver.lookup location.path declaration.module).probes setting.tree) :
    path ∈ setting.probes location := by
  rw [probes, parsed]
  exact List.mem_flatMap.mpr ⟨declaration, isImport, probed⟩

section Trees

variable {config : MergeConfig} {tree other : FileTree} {location : Location}
variable (sameLocation : ∀ path, other.normalize path = tree.normalize path)
include sameLocation

theorem workspaceRoot_congr :
    workspaceRoot ⟨config, other⟩ = workspaceRoot ⟨config, tree⟩ :=
  sameLocation _

theorem resolver_congr :
    resolver ⟨config, other⟩ = resolver ⟨config, tree⟩ := by
  simp only [resolver, Resolver.ofConfig, MergeConfig.workspaceLocation,
    MergeConfig.libraryName?, MergeConfig.libraryLocation, sameLocation]

theorem display_congr :
    display ⟨config, other⟩ = display ⟨config, tree⟩ := by
  funext path
  rw [display, display, workspaceRoot_congr sameLocation]

theorem isLenient_congr (location : Location) :
    isLenient ⟨config, other⟩ location = isLenient ⟨config, tree⟩ location := by
  rw [isLenient, isLenient, workspaceRoot_congr sameLocation]

theorem resolve_congr
    {importer : Path}
    {module : ModulePath}
    (sameFiles : ∀ path ∈ ((resolver ⟨config, tree⟩).lookup importer module).probes tree,
      other.isFile path = tree.isFile path) :
    (resolver ⟨config, other⟩).resolve other importer module =
      (resolver ⟨config, tree⟩).resolve tree importer module := by
  rw [resolver_congr sameLocation, Resolver.resolve_eq, Resolver.resolve_eq]
  exact Lookup.resolution_congr _ sameLocation sameFiles

theorem plan_congr
    {id : Nat}
    {isMain lenient : Bool}
    {source : ParsedSource}
    (parsed : tree.parsedAt? location = some source)
    (sameFiles : ∀ path ∈ probes ⟨config, tree⟩ location, other.isFile path = tree.isFile path) :
    plan ⟨config, other⟩ id location isMain lenient source =
      plan ⟨config, tree⟩ id location isMain lenient source := by
  have sameImports :
      dependencies ⟨config, other⟩ location lenient source.imports =
        dependencies ⟨config, tree⟩ location lenient source.imports := by
    apply dependencies_eq_of_forall
    intro declaration member
    have sameResolution :=
      resolve_congr sameLocation fun path probed =>
        sameFiles path (mem_probes parsed member probed)
    simp only [dependency, importRemarks, sameResolution, display_congr sameLocation]
  rw [plan, plan, sameImports]

/-- A file is loaded alike if it has the same content and its imports are looked up alike. -/
theorem loadsAlike_of_same_files
    (sameContent : other.readAt location = tree.readAt location)
    (sameFiles : ∀ path ∈ probes ⟨config, tree⟩ location, other.isFile path = tree.isFile path) :
    LoadsAlike ⟨config, tree⟩ ⟨config, other⟩ location := by
  intro id isMain
  simp only [load, sameContent, isLenient_congr sameLocation, display_congr sameLocation]
  split
  · rfl
  · split
    next => rfl
    next text readable =>
      split
      next source analysed =>
        have parsed := FileTree.parsedAt?_of_parse readable analysed
        exact plan_congr sameLocation parsed sameFiles
      next => rfl

end Trees

end Setting

/-- Two trees without links and with one current directory give the same result of a merge, be it an
outcome or an error, if they hold the same content at every file that can be reached from the main
file, and a file at the same paths among those at which the imports of these files are looked up. -/
theorem merge_eq_of_same_files
    (config : MergeConfig)
    {tree other : FileTree}
    {file : Path}
    (noLinks : tree.links = [])
    (otherNoLinks : other.links = [])
    (sameDirectory : other.current = tree.current)
    (sameContent : ∀ location,
      Setting.Reachable ⟨config, tree⟩ (tree.normalize file) location →
        other.readAt location = tree.readAt location)
    (sameFiles : ∀ location,
      Setting.Reachable ⟨config, tree⟩ (tree.normalize file) location →
        ∀ path ∈ Setting.probes ⟨config, tree⟩ location,
          other.isFile path = tree.isFile path) :
    merge config other file = merge config tree file := by
  have sameLocation := FileTree.normalize_congr noLinks otherNoLinks sameDirectory
  have sameMerge :
      Setting.mergeAt ⟨config, other⟩ (tree.normalize file) =
        Setting.mergeAt ⟨config, tree⟩ (tree.normalize file) := by
    refine Setting.mergeAt_congr (Setting.workspaceRoot_congr sameLocation) rfl ?_
    intro location reachable
    exact Setting.loadsAlike_of_same_files sameLocation (sameContent location reachable)
      (sameFiles location reachable)
  rw [merge, merge, config.validate_congr sameLocation, sameLocation, sameMerge]

/-- A main file and a module that it imports. -/
def sparseTree : FileTree :=
  .ofTexts ["w"]
    [(["w", "main.py"], "from lib.a import f\nimport os\nf()\n"),
      (["w", "contest", "lib", "a.py"], "def f(): pass\n")]

/-- The same files, a broken module that nothing imports, and a file beside the main file with the
name of the module. -/
def crowdedTree : FileTree :=
  .ofTexts ["w"]
    [(["w", "main.py"], "from lib.a import f\nimport os\nf()\n"),
      (["w", "contest", "lib", "a.py"], "def f(): pass\n"),
      (["w", "contest", "lib", "unused.py"], "x = (\n"),
      (["w", "a.py"], "f = 1\n")]

theorem merge_eq_crowdedTree :
    sparseTree.links = [] ∧
      crowdedTree.links = [] ∧
      sparseTree.isFile (.ofString "a.py") = false ∧
      crowdedTree.isFile (.ofString "a.py") = true ∧
      merge {} crowdedTree (.ofString "main.py") = merge {} sparseTree (.ofString "main.py") := by
  have facts :
      ∃ known : List Location,
        sparseTree.normalize (.ofString "main.py") ∈ known ∧
          (∀ location ∈ known, ∀ target ∈ Setting.targets ⟨{}, sparseTree⟩ location,
            target ∈ known) ∧
          (∀ location ∈ known, crowdedTree.readAt location = sparseTree.readAt location) ∧
          ∀ location ∈ known, ∀ path ∈ Setting.probes ⟨{}, sparseTree⟩ location,
            crowdedTree.isFile path = sparseTree.isFile path := by
    refine ⟨[["w", "main.py"], ["w", "contest", "lib", "a.py"]].map
      fun names => ⟨names.map (·.toList)⟩, ?_⟩
    decide +kernel
  obtain ⟨known, hasMain, closed, sameContent, sameFiles⟩ := facts
  have sameDirectory : crowdedTree.current = sparseTree.current := by decide +kernel
  have noLinks : sparseTree.links = [] := by decide +kernel
  have otherNoLinks : crowdedTree.links = [] := by decide +kernel
  refine ⟨noLinks, otherNoLinks, by decide +kernel, by decide +kernel, ?_⟩
  apply merge_eq_of_same_files {} noLinks otherNoLinks sameDirectory
  · intro location reachable
    exact sameContent location (reachable.mem_of_closed hasMain closed)
  · intro location reachable
    exact sameFiles location (reachable.mem_of_closed hasMain closed)

end Inliner
