import Inliner.Proofs.File.Identity
import Inliner.Proofs.Merge.Containment

/-!
# The rules of import resolution

An import is rooted if it is relative or starts with the name of the library.  A rooted import leads
to a module file or is missing, and any other import leads to a module file or is foreign.  Once the
name of the library has been met, only what follows it counts: a relative import leads where the
absolute one leads, from whichever file.
-/

namespace Inliner

/-! ## Rooted imports -/

namespace ModulePath

/-- The import is relative, or starts with the name of the library. -/
def IsRooted (module : ModulePath) (library : String) : Prop :=
  module.isRelative = true ∨ module.head? = some library

instance (module : ModulePath) (library : String) : Decidable (module.IsRooted library) :=
  inferInstanceAs (Decidable (_ ∨ _))

end ModulePath

namespace Lookup

/-- The lookup does not take the first of two files. -/
def IsRequired : Lookup → Prop
  | .probed _ _ => False
  | _ => True

theorem resolution_ne_foreign
    {lookup : Lookup}
    (required : lookup.IsRequired)
    (tree : FileTree) :
    lookup.resolution tree ≠ .foreign := by
  cases lookup with
  | nowhere reason => simp [resolution]
  | required path =>
      simp only [resolution, Resolver.requireFile]
      split <;> simp
  | probed first second => exact required.elim

theorem resolution_probed_eq_foreign_iff (tree : FileTree) (first second : Path) :
    (probed first second).resolution tree = .foreign ↔
      tree.isFile first = false ∧ tree.isFile second = false := by
  by_cases inFirst : tree.isFile first = true
  · simp [resolution, inFirst]
  · by_cases inSecond : tree.isFile second = true
    · simp [resolution, inFirst, inSecond]
    · simp [resolution, inFirst, inSecond]

theorem resolution_probed_ne_missing
    (tree : FileTree)
    (first second : Path)
    (reason : MissingReason) :
    (probed first second).resolution tree ≠ .missing reason := by
  simp only [resolution]
  split
  · simp
  · split <;> simp

end Lookup

namespace Resolver

variable {resolver : Resolver} {library : String}

theorem isLibraryName_iff
    (named : resolver.libraryName = some library.toList)
    (segment : String) :
    resolver.isLibraryName segment = true ↔ segment = library := by
  rw [isLibraryName, named, beq_iff_eq, Option.some.injEq, String.toList_inj, eq_comm]

theorem isRequired_libraryLookup (segments : List String) :
    (resolver.libraryLookup segments).IsRequired := by
  unfold libraryLookup
  split <;> trivial

theorem isRequired_relativeLookup (directory : Path) (module : ModulePath) :
    (resolver.relativeLookup directory module).IsRequired := by
  unfold relativeLookup
  split
  · trivial
  · split
    · trivial
    · split
      · trivial
      · split
        · exact isRequired_libraryLookup _
        · trivial

/-- The directory from which the imports of a file are looked up. -/
def directoryOf (resolver : Resolver) (importer : Path) : Path :=
  importer.parent?.getD resolver.workspaceRoot.path

theorem directoryOf_path
    {importer : Location}
    (plain : importer.IsPlain)
    (notRoot : importer ≠ .root) :
    resolver.directoryOf importer.path = importer.parent.path := by
  obtain ⟨directory, name, rfl⟩ :=
    (Location.eq_root_or_exists_child importer).resolve_left notRoot
  rw [directoryOf, Location.parent?_path_child plain, Location.parent_child, Option.getD_some]

section Named

variable (named : resolver.libraryName = some library.toList)
include named

theorem absoluteLookup_of_library (directory : Path) (rest : List String) :
    resolver.absoluteLookup directory (library :: rest) = resolver.libraryLookup rest := by
  have isName : resolver.isLibraryName library = true := (isLibraryName_iff named library).mpr rfl
  simp only [absoluteLookup, isName, if_true]

theorem isRequired_lookup
    {module : ModulePath}
    (rooted : module.IsRooted library)
    (importer : Path) :
    (resolver.lookup importer module).IsRequired := by
  unfold lookup
  dsimp only
  split
  · exact isRequired_relativeLookup _ module
  next absolute =>
    have isHead := rooted.resolve_left absolute
    obtain ⟨rest, isWhole⟩ := List.head?_eq_some_iff.mp isHead
    rw [isWhole, absoluteLookup_of_library named]
    exact isRequired_libraryLookup rest

theorem lookup_of_not_isRooted
    {module : ModulePath}
    (unrooted : ¬ module.IsRooted library)
    (importer : Path) :
    resolver.lookup importer module =
      .probed (resolver.moduleFile resolver.libraryRoot.path module.segments)
        (resolver.moduleFile (resolver.directoryOf importer) module.segments) := by
  obtain ⟨absolute, notHead⟩ := not_or.mp unrooted
  rw [lookup, if_neg absolute]
  cases segments : module.segments with
  | nil => rfl
  | cons head rest =>
      have notName : ¬ resolver.isLibraryName head = true := by
        rw [isLibraryName_iff named]
        rintro rfl
        exact notHead (by rw [ModulePath.head?, segments, List.head?_cons])
      simp only [absoluteLookup, notName]
      rfl

/-- What stands before the name of the library in a relative import does not count. -/
theorem relativeLookup_of_library
    {directory base : Path}
    {level : Nat}
    {before : List String}
    (ascends : ascend (level - 1) directory = some base)
    (inside : base.isWithin resolver.workspaceRoot.path = true)
    (first : library ∉ before)
    (rest : List String) :
    resolver.relativeLookup directory ⟨level, before ++ library :: rest⟩ =
      resolver.libraryLookup rest := by
  have isName : resolver.isLibraryName library = true := (isLibraryName_iff named library).mpr rfl
  have found :
      (before ++ library :: rest).dropWhile (!resolver.isLibraryName ·) = library :: rest := by
    rw [List.dropWhile_append_of_pos, List.dropWhile_cons_of_neg (by simp [isName])]
    intro segment member
    have notName : ¬ resolver.isLibraryName segment = true := by
      rw [isLibraryName_iff named]
      rintro rfl
      exact first member
    simpa using notName
  rw [relativeLookup, ascends]
  dsimp only
  rw [inside, found]
  simp

end Named

/-- However far up a relative import goes within the workspace, it is looked up by what follows the
name of the library. -/
theorem lookup_of_library
    (named : resolver.libraryName = some library.toList)
    {importer : Location}
    {level : Nat}
    {before : List String}
    (plain : importer.IsPlain)
    (relative : 0 < level)
    (enough : level ≤ importer.names.length)
    (inside : (importer.up level).path.isWithin resolver.workspaceRoot.path = true)
    (first : library ∉ before)
    (rest : List String) :
    resolver.lookup importer.path ⟨level, before ++ library :: rest⟩ =
      resolver.libraryLookup rest := by
  obtain ⟨fewer, rfl⟩ : ∃ fewer, level = fewer + 1 := Nat.exists_eq_succ_of_ne_zero relative.ne'
  rcases Location.eq_root_or_exists_child importer with rfl | ⟨directory, name, rfl⟩
  · cases enough
  · have isRelative : (ModulePath.mk (fewer + 1) (before ++ library :: rest)).isRelative = true :=
      decide_eq_true relative
    have directoryEnough : fewer ≤ directory.names.length := by
      simpa [Location.child] using enough
    rw [Location.up_child] at inside
    rw [lookup, if_pos isRelative, Location.parent?_path_child plain]
    apply relativeLookup_of_library named _ inside first
    exact ascend_path_eq_some (Location.isPlain_child_iff.mp plain).1 directoryEnough

end Resolver

/-! ## Imports of a file -/

namespace MergeConfig

variable {config : MergeConfig} {tree : FileTree}

section Imports

variable (config : MergeConfig) (tree : FileTree) (file : Path) (module : ModulePath)

/-- Where an import in a file leads. -/
def resolution : Resolution :=
  (Resolver.ofConfig config tree).resolve tree (tree.normalize file).path module

/-- The path of a module in the library. -/
def libraryFile : Path :=
  (Resolver.ofConfig config tree).moduleFile (config.libraryLocation tree).path module.segments

/-- The path of a module beside a file. -/
def neighbourFile : Path :=
  (Resolver.ofConfig config tree).moduleFile
    ((Resolver.ofConfig config tree).directoryOf (tree.normalize file).path) module.segments

end Imports

section Spelled

variable {module : ModulePath} {front : List String} {last : String}
  (valid : config.validate tree = .ok ())
  (noLinks : tree.links = [])
  (spelled : module.segments = front ++ [last])
  (isName : ∀ segment ∈ module.segments, IsName segment)
include valid noLinks spelled isName

theorem normalize_libraryFile :
    tree.normalize (config.libraryFile tree module) =
      (Resolver.ofConfig config tree).moduleLocation (config.libraryLocation tree) front last := by
  have confined := Resolver.confined_ofConfig valid
  rw [spelled] at isName
  obtain ⟨plain, isFile⟩ := Resolver.moduleFile_path confined.extended confined.libraryPlain isName
  rw [libraryFile, spelled]
  exact (congrArg tree.normalize isFile).trans (Location.normalize_path noLinks plain)

theorem normalize_neighbourFile
    {file : Path}
    (notRoot : tree.normalize file ≠ .root) :
    tree.normalize (config.neighbourFile tree file module) =
      (Resolver.ofConfig config tree).moduleLocation (tree.normalize file).parent front last := by
  have confined := Resolver.confined_ofConfig valid
  have filePlain := tree.isPlain_normalize file
  rw [spelled] at isName
  obtain ⟨plain, isFile⟩ := Resolver.moduleFile_path confined.extended filePlain.parent isName
  rw [neighbourFile, Resolver.directoryOf_path filePlain notRoot, spelled, isFile,
    Location.normalize_path noLinks plain]

end Spelled

theorem isFile_of_resolution
    {file : Path}
    {module : ModulePath}
    {target : Location}
    (leads : config.resolution tree file module = .library target) :
    tree.isFile target.path = true ∧ tree.normalize target.path = target := by
  obtain ⟨base, segments, isFile, rfl⟩ := Setting.exists_moduleFile_of_resolve leads
  exact FileTree.isFile_path_normalize isFile

section Named

variable {library : String} (named : config.libraryName? tree = some library.toList)
include named

theorem resolution_ne_foreign
    {module : ModulePath}
    (rooted : module.IsRooted library)
    (file : Path) :
    config.resolution tree file module ≠ .foreign := by
  have libraryNamed : (Resolver.ofConfig config tree).libraryName = some library.toList := named
  rw [resolution, Resolver.resolve_eq]
  apply Lookup.resolution_ne_foreign
  exact Resolver.isRequired_lookup libraryNamed rooted (tree.normalize file).path

theorem resolution_of_not_isRooted
    {module : ModulePath}
    (unrooted : ¬ module.IsRooted library)
    (file : Path) :
    config.resolution tree file module =
      (Lookup.probed (config.libraryFile tree module)
        (config.neighbourFile tree file module)).resolution tree := by
  have libraryNamed : (Resolver.ofConfig config tree).libraryName = some library.toList := named
  rw [resolution, Resolver.resolve_eq, Resolver.lookup_of_not_isRooted libraryNamed unrooted]
  rfl

theorem resolution_eq_foreign_iff (file : Path) (module : ModulePath) :
    config.resolution tree file module = .foreign ↔
      ¬ module.IsRooted library ∧
        tree.isFile (config.libraryFile tree module) = false ∧
        tree.isFile (config.neighbourFile tree file module) = false := by
  by_cases rooted : module.IsRooted library
  · have notForeign := resolution_ne_foreign named rooted file
    exact iff_of_false notForeign fun unrooted => unrooted.1 rooted
  · rw [resolution_of_not_isRooted named rooted, Lookup.resolution_probed_eq_foreign_iff]
    exact (and_iff_right rooted).symm

theorem isRooted_of_missing
    {file : Path}
    {module : ModulePath}
    {reason : MissingReason}
    (missing : config.resolution tree file module = .missing reason) :
    module.IsRooted library := by
  by_contra unrooted
  rw [resolution_of_not_isRooted named unrooted] at missing
  exact Lookup.resolution_probed_ne_missing tree _ _ reason missing

theorem resolution_of_library
    {file : Path}
    {level : Nat}
    {before : List String}
    (relative : 0 < level)
    (enough : level ≤ (tree.normalize file).names.length)
    (inside :
      ((tree.normalize file).up level).path.isWithin (config.workspaceLocation tree).path = true)
    (first : library ∉ before)
    (other : Path)
    (rest : List String) :
    config.resolution tree file ⟨level, before ++ library :: rest⟩ =
      config.resolution tree other ⟨0, library :: rest⟩ := by
  have libraryNamed : (Resolver.ofConfig config tree).libraryName = some library.toList := named
  have fromFile :
      (Resolver.ofConfig config tree).lookup (tree.normalize file).path
          ⟨level, before ++ library :: rest⟩ =
        (Resolver.ofConfig config tree).libraryLookup rest :=
    Resolver.lookup_of_library libraryNamed (tree.isPlain_normalize file) relative enough inside
      first rest
  have fromOther :
      (Resolver.ofConfig config tree).lookup (tree.normalize other).path ⟨0, library :: rest⟩ =
        (Resolver.ofConfig config tree).libraryLookup rest :=
    Resolver.absoluteLookup_of_library libraryNamed _ rest
  rw [resolution, resolution, Resolver.resolve_eq, Resolver.resolve_eq, fromFile, fromOther]

end Named

end MergeConfig

/-- With a valid configuration the library has a name.  An import is foreign exactly if it is not
rooted and there is neither a file for it in the library nor one beside the importing file, and it
is missing only if it is rooted.  What it leads to is a file, and the location of its own path.  If
it is not rooted it leads to the file in the library if there is one, whatever stands beside the
importing file; without links these two files are where the segments of the module lead down from
the library and from the directory of the importing file.  A relative import that starts from a
directory in the workspace leads where the part from the name of the library on leads as an
absolute import, from whichever file. -/
theorem resolution_follows_rules
    {config : MergeConfig}
    {tree : FileTree}
    (valid : config.validate tree = .ok ()) :
    ∃ library : String,
      config.libraryName? tree = some library.toList ∧
        ∀ (file : Path) (module : ModulePath),
          (config.resolution tree file module = .foreign ↔
              ¬ module.IsRooted library ∧
                tree.isFile (config.libraryFile tree module) = false ∧
                tree.isFile (config.neighbourFile tree file module) = false) ∧
            (∀ reason,
              config.resolution tree file module = .missing reason → module.IsRooted library) ∧
            (∀ target,
              config.resolution tree file module = .library target →
                tree.isFile target.path = true ∧ tree.normalize target.path = target) ∧
            (¬ module.IsRooted library →
              tree.isFile (config.libraryFile tree module) = true →
                config.resolution tree file module =
                  .library (tree.normalize (config.libraryFile tree module))) ∧
            (tree.links = [] →
              ∀ front last,
                module.segments = front ++ [last] →
                  (∀ segment ∈ module.segments, IsName segment) →
                    tree.normalize (config.libraryFile tree module) =
                        (Resolver.ofConfig config tree).moduleLocation (config.libraryLocation tree)
                          front last ∧
                      (tree.normalize file ≠ .root →
                        tree.normalize (config.neighbourFile tree file module) =
                          (Resolver.ofConfig config tree).moduleLocation
                            (tree.normalize file).parent front last)) ∧
            ∀ (other : Path) (level : Nat) (before rest : List String),
              0 < level →
                level ≤ (tree.normalize file).names.length →
                  ((tree.normalize file).up level).path.isWithin
                      (config.workspaceLocation tree).path =
                    true →
                    library ∉ before →
                      config.resolution tree file ⟨level, before ++ library :: rest⟩ =
                        config.resolution tree other ⟨0, library :: rest⟩ := by
  obtain ⟨library, named⟩ := (MergeConfig.isValid_of_validate valid).libraryNamed
  refine ⟨library, named, ?_⟩
  intro file module
  refine ⟨MergeConfig.resolution_eq_foreign_iff named file module,
    fun _ => MergeConfig.isRooted_of_missing named, fun _ => MergeConfig.isFile_of_resolution,
    ?_, ?_, ?_⟩
  · intro unrooted inLibrary
    rw [MergeConfig.resolution_of_not_isRooted named unrooted, Lookup.resolution, if_pos inLibrary]
  · intro noLinks front last spelled isName
    exact ⟨MergeConfig.normalize_libraryFile valid noLinks spelled isName,
      MergeConfig.normalize_neighbourFile valid noLinks spelled isName⟩
  · intro other level before rest relative enough inside first
    exact MergeConfig.resolution_of_library named relative enough inside first other rest

/-- A tree with a module in the library, one of the same name beside a main file, and another file
at its root. -/
def twofoldTree : FileTree :=
  .ofTexts ["w"]
    [(["w", "contest", "lib", "basic.py"], "x = 1\n"),
      (["w", "app", "deep", "basic.py"], "x = 2\n"),
      (["w", "app", "deep", "main.py"], "import basic\n"), (["w", "other.py"], "import basic\n")]

theorem resolution_twofoldTree_follows_rules :
    MergeConfig.validate {} twofoldTree = .ok () ∧
      (∀ rest,
        MergeConfig.resolution {} twofoldTree (.ofString "app/deep/main.py")
            ⟨2, ["any", "thing"] ++ "lib" :: rest⟩ =
          MergeConfig.resolution {} twofoldTree (.ofString "other.py") ⟨0, "lib" :: rest⟩) ∧
      MergeConfig.resolution {} twofoldTree (.ofString "app/deep/main.py") ⟨0, ["basic"]⟩ =
        .library ⟨["w", "contest", "lib", "basic.py"].map (·.toList)⟩ ∧
      MergeConfig.resolution {} twofoldTree (.ofString "app/deep/main.py") ⟨0, ["os"]⟩ =
        .foreign ∧
      MergeConfig.resolution {} twofoldTree (.ofString "app/deep/main.py") ⟨2, ["any", "lib"]⟩ =
        .missing .namesLibrary := by
  have valid : MergeConfig.validate {} twofoldTree = .ok () := by decide +kernel
  obtain ⟨library, named, rules⟩ := resolution_follows_rules valid
  have isLib : library = "lib" := by
    have evaluated : MergeConfig.libraryName? {} twofoldTree = some "lib".toList := by
      decide +kernel
    rw [evaluated] at named
    exact (String.toList_inj.mp (Option.some.inj named)).symm
  subst isLib
  obtain ⟨_, _, _, inLibrary, locations, _⟩ := rules (.ofString "app/deep/main.py") ⟨0, ["basic"]⟩
  obtain ⟨foreignIff, _, _, _, _, reroots⟩ := rules (.ofString "app/deep/main.py") ⟨0, ["os"]⟩
  have isMissing :
      MergeConfig.resolution {} twofoldTree (.ofString "other.py") ⟨0, ["lib"]⟩ =
        .missing .namesLibrary := by
    decide +kernel
  refine ⟨valid, ?_, ?_, ?_, ?_⟩
  · intro rest
    exact reroots _ 2 _ rest (by decide) (by decide +kernel) (by decide +kernel) (by decide)
  · have isName : ∀ segment ∈ ["basic"], IsName segment := by
      unfold IsName
      decide
    rw [inLibrary (by decide) (by decide +kernel),
      (locations (by decide +kernel) [] "basic" rfl isName).1]
    decide +kernel
  · exact foreignIff.mpr ⟨by decide, by decide +kernel, by decide +kernel⟩
  · rw [← isMissing]
    exact reroots _ 2 ["any"] [] (by decide) (by decide +kernel) (by decide +kernel) (by decide)

end Inliner
