import Inliner.Proofs.File.Writing
import Inliner.Proofs.Walk.Reads
import Mathlib.Data.List.Induction

/-!
# One location for each file

Where there are no links, the location of a path is found by reading the text between its slashes,
starting from the current directory unless the path is absolute: it does not matter whether
something is there.  The path of the location is another way to spell the path, and leads to the
same file.  So two paths are given the same number by a registry exactly if they are spellings of
one location.
-/

namespace Inliner

/-! ## Reading a path -/

/-- The names that are left after the pieces of a path have been read: nothing at all and a dot do
not count, two dots take back the last name if there is one, and any other piece is a name. -/
def cleanNames (names : List Text) : List Text → List Text
  | [] => names
  | piece :: pieces =>
      if piece = [] ∨ piece = ['.'] then
        cleanNames names pieces
      else if piece = ['.', '.'] then
        cleanNames names.dropLast pieces
      else
        cleanNames (names ++ [piece]) pieces

/-- The location that is spelled by a path, told from its text and the current directory alone. -/
def FileTree.spelledLocation (tree : FileTree) (path : Path) : Location :=
  ⟨cleanNames (if path.isAbsolute then [] else tree.current.names) path.pieces⟩

theorem Location.foldl_follow_pieces (start : Location) (pieces : List Text) :
    (pieces.filterMap Component.ofPiece?).foldl follow start =
      ⟨cleanNames start.names pieces⟩ := by
  induction pieces generalizing start with
  | nil => rfl
  | cons piece pieces inductionHypothesis =>
      rw [cleanNames]
      by_cases ignored : piece = [] ∨ piece = ['.']
      · have noName : Component.ofPiece? piece = none := if_pos ignored
        rw [List.filterMap_cons_none noName, if_pos ignored, inductionHypothesis]
      · by_cases isUp : piece = ['.', '.']
        · have isParent : Component.ofPiece? piece = some .parent := by
            rw [Component.ofPiece?, if_neg ignored, if_pos isUp]
          rw [List.filterMap_cons_some isParent, List.foldl_cons, inductionHypothesis,
            if_neg ignored, if_pos isUp]
          rfl
        · have isName : Component.ofPiece? piece = some (.normal piece) := by
            rw [Component.ofPiece?, if_neg ignored, if_neg isUp]
          rw [List.filterMap_cons_some isName, List.foldl_cons, inductionHypothesis,
            if_neg ignored, if_neg isUp]
          rfl

theorem Path.join_eq_anchoredAt (base path : Path) : base.join path = path.anchoredAt base := by
  unfold anchoredAt
  split
  next absolute => rw [join, if_pos absolute]
  next => rfl

namespace Location

theorem resolve_path
    {location : Location}
    (plain : location.IsPlain) :
    resolve root location.path = location := by
  have absolute : location.path.isAbsolute = true := rfl
  rw [resolve_eq_foldl_names, if_pos absolute, names_path plain, foldl_follow_normal]
  rfl

end Location

namespace FileTree

variable {tree : FileTree} {location : Location} {path : Path}

theorem resolve_join_eq_spelledLocation
    (clean : tree.current.IsPlain)
    (path : Path) :
    .resolve .root (tree.current.path.join path) = tree.spelledLocation path := by
  unfold spelledLocation
  rw [Path.join_eq_anchoredAt, Path.anchoredAt]
  cases absolute : path.isAbsolute with
  | true =>
      rw [if_pos rfl, if_pos rfl, Location.resolve_eq_foldl_names, if_pos absolute]
      exact Location.foldl_follow_pieces .root path.pieces
  | false =>
      have currentAbsolute : tree.current.path.isAbsolute = true := rfl
      have joined := Path.isAbsolute_join currentAbsolute path
      have fromCurrent : tree.current.path.names.foldl Location.follow .root = tree.current := by
        have resolved := Location.resolve_path clean
        rwa [Location.resolve_eq_foldl_names, if_pos currentAbsolute] at resolved
      rw [if_neg Bool.false_ne_true, if_neg Bool.false_ne_true, Location.resolve_eq_foldl_names,
        if_pos joined, Path.names_join absolute, List.foldl_append, fromCurrent]
      exact Location.foldl_follow_pieces tree.current path.pieces

theorem normalize_eq_spelledLocation
    (noLinks : tree.links = [])
    (clean : tree.current.IsPlain)
    (path : Path) :
    tree.normalize path = tree.spelledLocation path := by
  rw [normalize_eq_resolve noLinks, ← Path.join_eq_anchoredAt,
    resolve_join_eq_spelledLocation clean]

theorem eq_normalize_of_locate (located : tree.locate path = .ok location) :
    location = tree.normalize path := by
  rw [normalize, located]

/-! ## Spelling out where a path leads -/

theorem Leads.hasDirectory_start
    {left more : Nat}
    {start final : Location}
    {step : Step}
    {rest : List Step}
    (leads : tree.Leads left start (step :: rest) final more) :
    tree.hasDirectory start = true := by
  cases leads <;> assumption

theorem holds_of_locate (located : tree.locate path = .ok location) : tree.Holds location := by
  obtain ⟨more, leads⟩ := leads_of_locate located
  -- A path has at least one piece, so its start has been found to be a directory.
  obtain ⟨piece, pieces, cut⟩ : ∃ piece pieces, path.pieces = piece :: pieces :=
    List.exists_cons_of_ne_nil (Text.splitAt_ne_nil path.text)
  rw [steps, cut, List.map_cons] at leads
  exact leads.holds (holds_of_hasDirectory leads.hasDirectory_start)

theorem leads_names
    (left : Nat)
    (front back : List Text)
    (found : tree.Holds ⟨front ++ back⟩) :
    tree.Leads left ⟨front⟩ (back.map .down) ⟨front ++ back⟩ left := by
  induction back generalizing front with
  | nil =>
      rw [List.append_nil]
      exact .arrived left ⟨front⟩
  | cons name back inductionHypothesis =>
      have shift : front ++ name :: back = (front ++ [name]) ++ back := by simp
      rw [shift] at found ⊢
      have directory : tree.hasDirectory ⟨front⟩ = true := by
        apply hasDirectory_above found.1
        rw [Location.parent, List.append_assoc, List.dropLast_append_of_ne_nil (by simp)]
        exact List.prefix_append _ _
      have entry : tree.hasEntry (Location.child ⟨front⟩ name) = true := by
        by_cases last : back = []
        · rw [last, List.append_nil] at found
          exact found.2
        · refine (holds_of_hasDirectory (hasDirectory_above found.1 ?_)).2
          rw [Location.parent, List.dropLast_append_of_ne_nil last]
          exact List.prefix_append _ _
      exact .down directory entry (inductionHypothesis _ found)

theorem steps_path
    (plain : location.IsPlain)
    (below : location ≠ .root) :
    steps location.path = .slash :: location.names.map .down := by
  have someNames : location.names ≠ [] := fun none => below (congrArg Location.mk none)
  have cut : location.path.pieces = [] :: location.names := by
    rw [Path.pieces, Location.path, Text.splitAt, if_pos rfl,
      Text.splitAt_joinWith someNames fun name member => (plain name member).1]
  rw [steps, cut, List.map_cons]
  refine congrArg₂ List.cons rfl (List.map_congr_left ?_)
  exact fun name member => ofPiece_eq_down_of_counts (plain name member).2

theorem locate_path_of_locate (located : tree.locate path = .ok location) :
    tree.locate location.path = .ok location := by
  have plain : location.IsPlain := eq_normalize_of_locate located ▸ tree.isPlain_normalize path
  have written : location.path.text ≠ [] := List.cons_ne_nil _ _
  have fromRoot : tree.start location.path = .root := rfl
  have rootDirectory : tree.hasDirectory .root = true := rfl
  rw [locate, if_neg written, fromRoot]
  by_cases atRoot : location = .root
  · subst atRoot
    rfl
  · rw [steps_path plain atRoot]
    exact (Leads.idle rootDirectory (Or.inl rfl)
      (leads_names maxLinks [] location.names (holds_of_locate located))).walk_eq

/-- The location of a path that leads to a file has a path that leads to this file too. -/
theorem isFile_path_normalize (isFile : tree.isFile path = true) :
    tree.isFile (tree.normalize path).path = true ∧
      tree.normalize (tree.normalize path).path = tree.normalize path := by
  obtain ⟨location, located, present⟩ := exists_locate_of_isFile isFile
  have again := locate_path_of_locate located
  rw [← eq_normalize_of_locate located, ← eq_normalize_of_locate again, FileTree.isFile, again]
  exact ⟨present, rfl⟩

end FileTree

/-! ## Numbers of paths -/

namespace Registry

/-- A file that is registered under a path is found under another one, with the same number. -/
def Identifies (registry : Registry) (path other : Path) : Prop :=
  (registry.register path).1.lookup other = some (registry.register path).2

theorem identifies_self (registry : Registry) (path : Path) :
    registry.Identifies path path := by
  unfold Identifies
  cases found : registry.lookup path with
  | some id =>
      rw [register, found]
      exact found
  | none =>
      have unknown := found
      rw [lookup_eq_numberOf?, numberOf?] at unknown
      rw [register_of_lookup_eq_none found, lookup_eq_numberOf?, numberOf?, keys_add,
        List.findIdx?_append, unknown]
      simp

theorem identifies_iff (registry : Registry) (path other : Path) :
    registry.Identifies path other ↔ path.components = other.components := by
  have own := identifies_self registry path
  constructor
  · intro found
    have ownKey := getElem?_keys_of_lookup own
    rw [getElem?_keys_of_lookup found] at ownKey
    exact (Option.some.inj ownKey).symm
  · intro same
    rw [Identifies, lookup_eq_numberOf?, ← same, ← lookup_eq_numberOf?]
    exact own

end Registry

namespace FileTree

variable {tree : FileTree}

theorem identifies_normalize_iff
    (tree : FileTree)
    (registry : Registry)
    (path other : Path) :
    registry.Identifies (tree.normalize path).path (tree.normalize other).path ↔
      tree.normalize path = tree.normalize other := by
  rw [Registry.identifies_iff]
  constructor
  · exact Location.eq_of_components_path_eq (tree.isPlain_normalize path)
      (tree.isPlain_normalize other)
  · intro same
    rw [same]

/-- In a tree without links and with a clean current directory the location of a path is what its
text spells, joined to the current directory, whether something is there or not.  The location has
an absolute path without dots, which spells this location again.  Two paths are identified exactly
if they spell the same location, and so, if they lead somewhere, exactly if they lead to the same
file or directory. -/
theorem normalize_identifies_spellings
    (noLinks : tree.links = [])
    (clean : tree.current.IsPlain)
    (path : Path) :
    tree.normalize path = tree.spelledLocation path ∧
      Location.resolve .root (tree.current.path.join path) = tree.spelledLocation path ∧
      (∀ location, tree.locate path = .ok location → location = tree.spelledLocation path) ∧
      (tree.normalize path).path.isAbsolute = true ∧
      (∀ component ∈ (tree.normalize path).path.components,
        component ≠ .current ∧ component ≠ .parent) ∧
      tree.normalize (tree.normalize path).path = tree.normalize path ∧
      ∀ (other : Path) (registry : Registry),
        (registry.Identifies (tree.normalize path).path (tree.normalize other).path ↔
            tree.spelledLocation path = tree.spelledLocation other) ∧
          ∀ location otherLocation,
            tree.locate path = .ok location →
              tree.locate other = .ok otherLocation →
                (registry.Identifies (tree.normalize path).path (tree.normalize other).path ↔
                  location = otherLocation) := by
  have plain := tree.isPlain_normalize path
  have spelled := normalize_eq_spelledLocation noLinks clean
  refine ⟨spelled path, resolve_join_eq_spelledLocation clean path, ?_, rfl, ?_,
    Location.normalize_path noLinks plain, ?_⟩
  · intro location located
    exact (eq_normalize_of_locate located).trans (spelled path)
  · intro component member
    rw [Location.components_path plain, Location.components] at member
    rcases List.mem_cons.mp member with rfl | isName
    · simp
    · obtain ⟨name, _, rfl⟩ := List.mem_map.mp isName
      simp
  · intro other registry
    have sameLocation := identifies_normalize_iff tree registry path other
    constructor
    · rw [sameLocation, spelled path, spelled other]
    · intro location otherLocation located otherLocated
      rw [sameLocation, ← eq_normalize_of_locate located,
        ← eq_normalize_of_locate otherLocated]

/-- A tree with a file beside the current directory. -/
def besideTree : FileTree :=
  .ofTexts ["w", "app"] [(["w", "lib", "a.py"], "x = 1\n")]

/-- Of three spellings of one file the first two lead to it, and the third one goes through a
directory that is not there. -/
theorem normalize_besideTree_identifies_spellings :
    besideTree.links = [] ∧
      besideTree.current.IsPlain ∧
      besideTree.locate (.ofString "../lib//./a.py") =
        besideTree.locate (.ofString "/../w/lib/a.py") ∧
      (∀ location, besideTree.locate (.ofString "gone/../../lib/a.py") ≠ .ok location) ∧
      ∀ registry : Registry,
        registry.Identifies (besideTree.normalize (.ofString "../lib//./a.py")).path
            (besideTree.normalize (.ofString "/../w/lib/a.py")).path ∧
          registry.Identifies (besideTree.normalize (.ofString "../lib//./a.py")).path
            (besideTree.normalize (.ofString "gone/../../lib/a.py")).path := by
  have clean : besideTree.current.IsPlain := by
    unfold Location.IsPlain
    decide +kernel
  obtain ⟨location, found, foundAgain⟩ :
      ∃ location,
        besideTree.locate (.ofString "../lib//./a.py") = .ok location ∧
          besideTree.locate (.ofString "/../w/lib/a.py") = .ok location := by
    refine ⟨⟨["w", "lib", "a.py"].map (·.toList)⟩, ?_⟩
    decide +kernel
  have missed : besideTree.locate (.ofString "gone/../../lib/a.py") = .error .notFound := by
    decide +kernel
  have noLinks : besideTree.links = [] := by decide +kernel
  obtain ⟨_, _, _, _, _, _, identifies⟩ :=
    normalize_identifies_spellings noLinks clean (.ofString "../lib//./a.py")
  refine ⟨noLinks, clean, found.trans foundAgain.symm, ?_, ?_⟩
  · intro other
    rw [missed]
    exact fun impossible => nomatch impossible
  · intro registry
    constructor
    · exact ((identifies _ registry).2 location location found foundAgain).mpr rfl
    · exact (identifies _ registry).1.mpr (by decide +kernel)

end FileTree

end Inliner
