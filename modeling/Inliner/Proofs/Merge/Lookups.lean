import Inliner.Proofs.File.Locations

/-!
# Looking up imports

Where an import leads is decided in two steps.  The importing file and the module tell at which
paths a file is looked for, whatever the files are; then the files decide.  `Resolver.lookup` is the
first step, and `Lookup.resolution` the second one.  So two trees in which paths have the same
locations, and that have a file at the same paths among those that are looked at, resolve an import
alike.
-/

namespace Inliner

/-- How an import is looked up: it leads nowhere whatever the files are, it needs the file at a
path, or it takes the first of two files that is there. -/
inductive Lookup where
  | nowhere (reason : MissingReason)
  | required (path : Path)
  | probed (first second : Path)

namespace Lookup

/-- Where a lookup leads in a tree. -/
def resolution (tree : FileTree) : Lookup → Resolution
  | .nowhere reason => .missing reason
  | .required path => Resolver.requireFile tree path
  | .probed first second =>
      if tree.isFile first then
        .library (tree.normalize first)
      else if tree.isFile second then
        .library (tree.normalize second)
      else
        .foreign

/-- The paths at which a lookup looks for a file in a tree.  The second of two files counts only
where the first one is not there. -/
def probes (tree : FileTree) : Lookup → List Path
  | .nowhere _ => []
  | .required path => [path]
  | .probed first second => if tree.isFile first then [first] else [first, second]

theorem resolution_congr
    {tree other : FileTree}
    (lookup : Lookup)
    (sameLocation : ∀ path, other.normalize path = tree.normalize path)
    (sameFiles : ∀ path ∈ lookup.probes tree, other.isFile path = tree.isFile path) :
    lookup.resolution other = lookup.resolution tree := by
  cases lookup with
  | nowhere reason => rfl
  | required path =>
      have same : other.isFile path = tree.isFile path :=
        sameFiles path (List.mem_singleton_self path)
      simp only [resolution, Resolver.requireFile, same, sameLocation]
  | probed first second =>
      by_cases found : tree.isFile first = true
      · have same : other.isFile first = tree.isFile first :=
          sameFiles first (by simp [probes, found])
        simp only [resolution, same, sameLocation, found, if_true]
      · have sameFirst : other.isFile first = tree.isFile first :=
          sameFiles first (by simp [probes, found])
        have sameSecond : other.isFile second = tree.isFile second :=
          sameFiles second (by simp [probes, found])
        simp only [resolution, sameFirst, sameSecond, sameLocation]

/-- A lookup leads to the location of one of the paths that it looks at, where there is a file. -/
theorem exists_probe_of_resolution
    {tree : FileTree}
    {lookup : Lookup}
    {target : Location}
    (leads : lookup.resolution tree = .library target) :
    ∃ path ∈ lookup.probes tree, tree.isFile path = true ∧ target = tree.normalize path := by
  cases lookup with
  | nowhere reason => cases leads
  | required path =>
      simp only [resolution, Resolver.requireFile] at leads
      split at leads
      next found =>
        cases leads
        exact ⟨path, List.mem_singleton_self path, found, rfl⟩
      next => cases leads
  | probed first second =>
      simp only [resolution] at leads
      split at leads
      next found =>
        cases leads
        exact ⟨first, by simp [probes, found], found, rfl⟩
      next missed =>
        split at leads
        next found =>
          cases leads
          exact ⟨second, by simp [probes, missed], found, rfl⟩
        next => cases leads

end Lookup

namespace Resolver

/-- How a path below the library is looked up. -/
def libraryLookup (resolver : Resolver) (segments : List String) : Lookup :=
  if segments.isEmpty then
    .nowhere .namesLibrary
  else
    .required (resolver.moduleFile resolver.libraryRoot.path segments)

/-- How a relative import from a directory is looked up. -/
def relativeLookup (resolver : Resolver) (directory : Path) (module : ModulePath) : Lookup :=
  match ascend (module.level - 1) directory with
  | none => .nowhere .beyondRoot
  | some base =>
      if !base.isWithin resolver.workspaceRoot.path then
        .nowhere (.aboveWorkspace resolver.workspaceRoot)
      else if module.segments.isEmpty then
        .nowhere .namesNoModule
      else
        match module.segments.dropWhile (!resolver.isLibraryName ·) with
        | _ :: rest => resolver.libraryLookup rest
        | [] => .required (resolver.moduleFile base module.segments)

/-- How an absolute import from a directory is looked up. -/
def absoluteLookup (resolver : Resolver) (directory : Path) (segments : List String) : Lookup :=
  let probed : Lookup :=
    .probed (resolver.moduleFile resolver.libraryRoot.path segments)
      (resolver.moduleFile directory segments)
  match segments with
  | head :: rest => if resolver.isLibraryName head then resolver.libraryLookup rest else probed
  | [] => probed

/-- How an import of a module in a file is looked up. -/
def lookup (resolver : Resolver) (importer : Path) (module : ModulePath) : Lookup :=
  let directory := importer.parent?.getD resolver.workspaceRoot.path
  if module.isRelative then
    resolver.relativeLookup directory module
  else
    resolver.absoluteLookup directory module.segments

section Resolution

variable (resolver : Resolver) (tree : FileTree)

theorem underLibrary_eq (segments : List String) :
    resolver.underLibrary tree segments = (resolver.libraryLookup segments).resolution tree := by
  unfold underLibrary libraryLookup
  split <;> rfl

theorem resolveRelative_eq (directory : Path) (module : ModulePath) :
    resolver.resolveRelative tree directory module =
      (resolver.relativeLookup directory module).resolution tree := by
  unfold resolveRelative relativeLookup
  cases ascend (module.level - 1) directory with
  | none => rfl
  | some base =>
      dsimp only
      split
      · rfl
      · split
        · rfl
        · cases module.segments.dropWhile (!resolver.isLibraryName ·) with
          | nil => rfl
          | cons head rest => exact underLibrary_eq resolver tree rest

theorem resolve_eq (importer : Path) (module : ModulePath) :
    resolver.resolve tree importer module =
      (resolver.lookup importer module).resolution tree := by
  unfold resolve lookup
  dsimp only
  split
  · exact resolveRelative_eq resolver tree _ module
  · unfold absoluteLookup
    cases module.segments with
    | nil => rfl
    | cons head rest =>
        dsimp only
        split
        · exact underLibrary_eq resolver tree rest
        · rfl

end Resolution

/-- An import is looked up at the paths of module files only. -/
theorem exists_moduleFile_of_mem_probes
    {resolver : Resolver}
    {tree : FileTree}
    {importer path : Path}
    {module : ModulePath}
    (isProbed : path ∈ (resolver.lookup importer module).probes tree) :
    ∃ base segments, path = resolver.moduleFile base segments := by
  have ofLibrary
      {segments : List String}
      (isProbed : path ∈ (resolver.libraryLookup segments).probes tree) :
      ∃ base segments, path = resolver.moduleFile base segments := by
    unfold libraryLookup at isProbed
    split at isProbed
    · cases isProbed
    · exact ⟨_, _, List.mem_singleton.mp isProbed⟩
  have ofProbed
      {directory : Path}
      {segments : List String}
      (isProbed : path ∈
        (Lookup.probed (resolver.moduleFile resolver.libraryRoot.path segments)
          (resolver.moduleFile directory segments)).probes tree) :
      ∃ base segments, path = resolver.moduleFile base segments := by
    simp only [Lookup.probes] at isProbed
    split at isProbed
    · exact ⟨_, _, List.mem_singleton.mp isProbed⟩
    · rcases List.mem_cons.mp isProbed with isFirst | second
      · exact ⟨_, _, isFirst⟩
      · exact ⟨_, _, List.mem_singleton.mp second⟩
  unfold lookup at isProbed
  dsimp only at isProbed
  split at isProbed
  · unfold relativeLookup at isProbed
    split at isProbed
    · cases isProbed
    · split at isProbed
      · cases isProbed
      · split at isProbed
        · cases isProbed
        · split at isProbed
          · exact ofLibrary isProbed
          · exact ⟨_, _, List.mem_singleton.mp isProbed⟩
  · unfold absoluteLookup at isProbed
    split at isProbed
    · split at isProbed
      · exact ofLibrary isProbed
      · exact ofProbed isProbed
    · exact ofProbed isProbed

end Resolver

end Inliner
