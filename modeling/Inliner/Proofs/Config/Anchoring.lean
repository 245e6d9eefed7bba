import Inliner.Config.File
import Inliner.Proofs.File.Identity

/-!
# Configurations that do not depend on where one is

A configuration file is named, or it is found in a directory.  If it is named, its directory is told
from its path and may be spelled in another way than the directory in which it is found; but its
components are the same.  The directories in the configuration start there.  So they have the same
components in both cases, they are absolute, and no current directory has a part in them.  Nor have
links: the directory is there, for it holds the file, and both spellings lead to it.
-/

namespace Inliner

/-! ## The directory of a path -/

namespace Path

variable {path base other directory : Path}

/-- What is dropped from the end of a path belongs to none of its names. -/
theorem names_trimReversed (start : Nat) (text : Text) :
    names ⟨(trimReversed start text).reverse⟩ = names ⟨text.reverse⟩ := by
  fun_induction trimReversed start text with
  | case1 => rfl
  | case2 rest few => rfl
  | case3 rest many inductionHypothesis =>
      rw [inductionHypothesis, List.reverse_cons,
        names_append_ignored (by simp) (by simp [Component.ofPiece?])]
  | case4 => rfl
  | case5 => rfl
  | case6 rest few => rfl
  | case7 rest many inductionHypothesis =>
      rw [inductionHypothesis, List.reverse_cons, List.reverse_cons, List.reverse_cons,
        List.append_assoc, List.singleton_append,
        names_append_ignored (by simp) (by simp [Component.ofPiece?]),
        names_append_ignored (by simp) (by simp [Component.ofPiece?])]
  | case8 => rfl

/-- The slash at the start of an absolute path is kept. -/
theorem isAbsolute_trimReversed
    {text : Text} (absolute : isAbsolute ⟨text.reverse⟩ = true) :
    isAbsolute ⟨(trimReversed 1 text).reverse⟩ = true := by
  fun_induction trimReversed 1 text with
  | case1 => exact absolute
  | case2 rest few => exact absolute
  | case3 rest many inductionHypothesis =>
      have nonempty : rest.reverse ≠ [] := by
        intro nothing
        rw [List.reverse_eq_nil_iff.mp nothing] at many
        exact many Nat.zero_lt_one
      rw [List.reverse_cons, isAbsolute_append nonempty] at absolute
      exact inductionHypothesis absolute
  | case4 impossible => cases impossible
  | case5 => exact absolute
  | case6 rest few => exact absolute
  | case7 rest many inductionHypothesis =>
      rw [List.reverse_cons, isAbsolute_append (by simp)] at absolute
      exact inductionHypothesis absolute
  | case8 => exact absolute

theorem text_ne_nil (absolute : path.isAbsolute = true) : path.text ≠ [] := by
  intro nothing
  rw [isAbsolute, nothing] at absolute
  cases absolute

/-- The text of a directory with a slash at its end, before the text of what is in it. -/
def slashed (directory : Path) : Text :=
  if directory.text = [] ∨ directory.text.getLast? = some '/' then
    directory.text
  else
    directory.text ++ ['/']

theorem join_eq_slashed (directory : Path) (relative : path.isAbsolute = false) :
    directory.join path = ⟨directory.slashed ++ path.text⟩ := by
  rw [join, if_neg (by simp [relative]), slashed]
  split <;> simp

theorem ends_slashed (directory : Path) :
    directory.slashed = [] ∨ directory.slashed.getLast? = some '/' := by
  unfold slashed
  split
  next ends => exact ends
  next => exact Or.inr List.getLast?_concat

theorem slashed_append
    {front : Text} (ends : front = [] ∨ front.getLast? = some '/') (text : Text) :
    slashed ⟨front ++ text⟩ = front ++ slashed ⟨text⟩ := by
  by_cases nothing : text = []
  · simp [slashed, nothing, ends]
  · have last : (front ++ text).getLast? = text.getLast? :=
      List.getLast?_append_of_ne_nil _ nothing
    rw [slashed, slashed, last]
    by_cases ends : text.getLast? = some '/' <;> simp [nothing, ends]

theorem names_slashed (directory : Path) : names ⟨directory.slashed⟩ = directory.names := by
  unfold slashed
  split
  next => rfl
  next => exact names_append_ignored (by simp) (by simp [Component.ofPiece?])

section Absolute

variable (absolute : directory.isAbsolute = true)
include absolute

theorem isAbsolute_slashed : isAbsolute ⟨directory.slashed⟩ = true := by
  unfold slashed
  split
  next => exact absolute
  next =>
    rw [isAbsolute_append (text_ne_nil absolute)]
    exact absolute

theorem getLast?_slashed : directory.slashed.getLast? = some '/' :=
  directory.ends_slashed.resolve_left (text_ne_nil (isAbsolute_slashed absolute))

/-- The path of a name in an absolute directory leads back to this directory. -/
theorem exists_parent?_join
    {name : Text} (noSlash : '/' ∉ name)
    (counts : Component.ofPiece? name = some (.normal name)) :
    ∃ base, (directory.join ⟨name⟩).parent? = some base ∧ base.isAbsolute = true ∧
      base.components = directory.components := by
  have frontAbsolute := isAbsolute_slashed absolute
  have found := parent?_append_name frontAbsolute (getLast?_slashed absolute) noSlash counts
  have relative : isAbsolute ⟨name⟩ = false := isAbsolute_of_not_mem noSlash
  rw [← join_eq_slashed directory relative] at found
  have baseAbsolute : isAbsolute ⟨(trimReversed 1 directory.slashed.reverse).reverse⟩ = true :=
    isAbsolute_trimReversed (by rw [List.reverse_reverse]; exact frontAbsolute)
  refine ⟨_, found, baseAbsolute, ?_⟩
  rw [components_of_isAbsolute baseAbsolute, components_of_isAbsolute absolute, names_trimReversed,
    List.reverse_reverse, names_slashed]

/-- The slash before the text of what is in a directory cuts the path in two. -/
theorem exists_join_eq_slash :
    ∃ front : Text,
      names ⟨front⟩ = directory.names ∧
        ∀ path : Path, path.isAbsolute = false →
          directory.join path = ⟨front ++ '/' :: path.text⟩ := by
  obtain ⟨front, split⟩ := List.getLast?_eq_some_iff.mp (getLast?_slashed absolute)
  refine ⟨front, ?_, ?_⟩
  · rw [← directory.names_slashed, split]
    exact (names_append_ignored (by simp) (by simp [Component.ofPiece?])).symm
  · intro path relative
    rw [join_eq_slashed directory relative, split, List.append_assoc]
    rfl

end Absolute

/-! ## Paths that start at a base -/

theorem isAbsolute_join_of_relative
    (pathRelative : path.isAbsolute = false) (otherRelative : other.isAbsolute = false) :
    (path.join other).isAbsolute = false := by
  rw [join_eq_slashed path otherRelative, slashed]
  by_cases empty : path.text = []
  · rw [if_pos (Or.inl empty), empty]
    exact otherRelative
  · split
    · rw [isAbsolute_append empty]
      exact pathRelative
    · rw [List.append_assoc, isAbsolute_append empty]
      exact pathRelative

theorem join_assoc (base path other : Path) :
    (base.join path).join other = base.join (path.join other) := by
  cases otherAbsolute : other.isAbsolute with
  | true => simp [join, otherAbsolute]
  | false =>
      cases absolute : path.isAbsolute with
      | true =>
          have onward := isAbsolute_join absolute other
          rw [base.join_eq_anchoredAt path, anchoredAt, if_pos absolute, base.join_eq_anchoredAt,
            anchoredAt, if_pos onward]
      | false =>
          have onward := isAbsolute_join_of_relative absolute otherAbsolute
          rw [join_eq_slashed base absolute, join_eq_slashed _ otherAbsolute,
            join_eq_slashed base onward, join_eq_slashed path otherAbsolute,
            slashed_append base.ends_slashed, List.append_assoc]

theorem anchoredAt_of_isAbsolute (absolute : path.isAbsolute = true) (base : Path) :
    path.anchoredAt base = path :=
  if_pos absolute

theorem isAbsolute_anchoredAt (absolute : base.isAbsolute = true) (path : Path) :
    (path.anchoredAt base).isAbsolute = true := by
  rw [← join_eq_anchoredAt]
  exact isAbsolute_join absolute path

/-- Where a path leads from a base does not depend on how the base is spelled. -/
theorem components_anchoredAt_congr
    (baseAbsolute : base.isAbsolute = true) (otherAbsolute : other.isAbsolute = true)
    (same : base.components = other.components) (path : Path) :
    (path.anchoredAt base).components = (path.anchoredAt other).components := by
  cases absolute : path.isAbsolute with
  | true => rw [anchoredAt_of_isAbsolute absolute, anchoredAt_of_isAbsolute absolute]
  | false =>
      rw [components_of_isAbsolute baseAbsolute, components_of_isAbsolute otherAbsolute] at same
      rw [components_of_isAbsolute (isAbsolute_anchoredAt baseAbsolute path),
        components_of_isAbsolute (isAbsolute_anchoredAt otherAbsolute path),
        ← join_eq_anchoredAt, ← join_eq_anchoredAt, names_join absolute, names_join absolute,
        (List.cons.inj same).2]

end Path

/-! ## Absolute paths in a tree -/

namespace FileTree

variable {tree : FileTree} {path : Path}

theorem locate_eq_walk_root (absolute : path.isAbsolute = true) :
    tree.locate path = walk tree .root (steps path) := by
  rw [locate_eq_walk (Path.text_ne_nil absolute), start, if_pos absolute]

theorem locate_of_isAbsolute (here : Location) (absolute : path.isAbsolute = true) :
    locate { tree with current := here } path = tree.locate path := by
  rw [locate_eq_walk_root absolute, locate_eq_walk_root absolute]
  apply walk_congr
  · exact fun place => rfl
  · exact fun place => rfl
  · rfl

theorem normalize_of_isAbsolute (here : Location) (absolute : path.isAbsolute = true) :
    normalize { tree with current := here } path = tree.normalize path := by
  rw [normalize, normalize, locate_of_isAbsolute here absolute,
    Path.anchoredAt_of_isAbsolute absolute, Path.anchoredAt_of_isAbsolute absolute]

/-- The step that a component takes. -/
def Step.ofComponent : Component → Step
  | .root | .current => .stay
  | .parent => .up
  | .normal name => .down name

theorem filter_moves_steps (path : Path) :
    (steps path).filter Step.moves = path.names.map Step.ofComponent := by
  rw [steps, Path.names]
  induction path.pieces with
  | nil => rfl
  | cons piece pieces inductionHypothesis =>
      rw [List.map_cons, List.filter_cons, List.filterMap_cons, inductionHypothesis]
      unfold Step.ofPiece Component.ofPiece?
      by_cases nothing : piece = []
      · simp [nothing, Step.moves]
      · by_cases dot : piece = ['.']
        · simp [dot, Step.moves]
        · by_cases dots : piece = ['.', '.']
          · simp [dots, Step.moves, Step.ofComponent]
          · simp [nothing, dot, dots, Step.moves, Step.ofComponent]

theorem steps_append_slash (front back : Text) :
    steps ⟨front ++ '/' :: back⟩ = steps ⟨front⟩ ++ steps ⟨back⟩ := by
  simp only [steps, Path.pieces]
  rw [Text.splitAt_append_separator, List.map_append]

section Spellings

variable {directory base : Path} {name : Text}
  (absolute : directory.isAbsolute = true) (baseAbsolute : base.isAbsolute = true)
  (same : base.components = directory.components)
  (noSlash : '/' ∉ name) (stored : tree.isFile (directory.join ⟨name⟩) = true)
include absolute baseAbsolute same noSlash stored

/-- The way to the file passes through the directory, so both spellings of it lead there. -/
theorem locate_join_congr (relative : path.isAbsolute = false) :
    tree.locate (base.join path) = tree.locate (directory.join path) := by
  have sameNames : base.names = directory.names := by
    rw [Path.components_of_isAbsolute absolute, Path.components_of_isAbsolute baseAbsolute] at same
    exact (List.cons.inj same).2
  obtain ⟨front, names, joined⟩ := Path.exists_join_eq_slash absolute
  obtain ⟨baseFront, baseNames, baseJoined⟩ := Path.exists_join_eq_slash baseAbsolute
  obtain ⟨final, located, _⟩ := exists_locate_of_isFile stored
  rw [locate_eq_walk_root (Path.isAbsolute_join absolute _)] at located
  obtain ⟨more, leads⟩ := leads_of_walk located
  rw [joined _ (Path.isAbsolute_of_not_mem noSlash), steps_append_slash] at leads
  obtain ⟨reached, between, toReached, onward⟩ := leads.exists_of_append
  have oneStep : steps ⟨name⟩ = [.ofPiece name] := by
    rw [steps, Path.pieces, Text.splitAt_of_not_mem noSlash]
    rfl
  rw [oneStep] at onward
  have otherWay : tree.Leads maxLinks .root (steps ⟨baseFront⟩) reached between := by
    apply toReached.of_filter_eq onward.hasDirectory_start
    rw [filter_moves_steps, filter_moves_steps, baseNames, names, sameNames]
  rw [locate_eq_walk_root (Path.isAbsolute_join baseAbsolute path),
    locate_eq_walk_root (Path.isAbsolute_join absolute path), walk, walk,
    baseJoined path relative, joined path relative, steps_append_slash, steps_append_slash,
    follow_append, follow_append, otherWay.follow_eq, toReached.follow_eq]

/-- However a directory that is there is spelled, a path in it leads to one location. -/
theorem normalize_join_congr (path : Path) :
    tree.normalize (base.join path) = tree.normalize (directory.join path) := by
  cases relative : path.isAbsolute with
  | true => rw [Path.join, if_pos relative, Path.join, if_pos relative]
  | false =>
      have sameLocated :=
        locate_join_congr absolute baseAbsolute same noSlash stored relative
      have sameComponents : (base.join path).components = (directory.join path).components := by
        rw [Path.join_eq_anchoredAt, Path.join_eq_anchoredAt]
        exact Path.components_anchoredAt_congr baseAbsolute absolute same path
      rw [normalize, normalize, sameLocated,
        Path.anchoredAt_of_isAbsolute (Path.isAbsolute_join baseAbsolute path),
        Path.anchoredAt_of_isAbsolute (Path.isAbsolute_join absolute path), Location.resolve,
        Location.resolve, sameComponents]

end Spellings

end FileTree

/-! ## Configurations -/

namespace FileConfig

variable {tree : FileTree} {config found named : FileConfig} {path base other directory : Path}

/-- The directories of a configuration start at the root. -/
structure IsAnchored (config : FileConfig) : Prop where
  contestDirectory : config.contestDirectory.isAbsolute = true
  outputDirectory : config.outputDirectory.isAbsolute = true
  workspaceRoot : config.merge.workspaceRoot.isAbsolute = true

/-- Two configurations have directories that are the same paths, and all their other settings are
equal. -/
structure Agrees (config other : FileConfig) : Prop where
  contestDirectory : config.contestDirectory.components = other.contestDirectory.components
  outputDirectory : config.outputDirectory.components = other.outputDirectory.components
  workspaceRoot : config.merge.workspaceRoot.components = other.merge.workspaceRoot.components
  settings : { config.merge with workspaceRoot := other.merge.workspaceRoot } = other.merge

theorem isAnchored_anchored (config : FileConfig) (absolute : base.isAbsolute = true) :
    (config.anchored base).IsAnchored where
  contestDirectory := Path.isAbsolute_anchoredAt absolute _
  outputDirectory := Path.isAbsolute_anchoredAt absolute _
  workspaceRoot := Path.isAbsolute_anchoredAt absolute _

theorem agrees_anchored
    (config : FileConfig) (baseAbsolute : base.isAbsolute = true)
    (otherAbsolute : other.isAbsolute = true) (same : base.components = other.components) :
    (config.anchored base).Agrees (config.anchored other) where
  contestDirectory := Path.components_anchoredAt_congr baseAbsolute otherAbsolute same _
  outputDirectory := Path.components_anchoredAt_congr baseAbsolute otherAbsolute same _
  workspaceRoot := Path.components_anchoredAt_congr baseAbsolute otherAbsolute same _
  settings := rfl

/-- Directories that start at the root stay where they are. -/
theorem IsAnchored.anchored_eq (anchored : config.IsAnchored) (base : Path) :
    config.anchored base = config := by
  rw [FileConfig.anchored, Path.anchoredAt_of_isAbsolute anchored.contestDirectory,
    Path.anchoredAt_of_isAbsolute anchored.outputDirectory,
    Path.anchoredAt_of_isAbsolute anchored.workspaceRoot]

theorem IsAnchored.isAbsolute_libraryDirectory (anchored : config.IsAnchored) :
    config.merge.libraryDirectory.isAbsolute = true :=
  Path.isAbsolute_anchoredAt anchored.workspaceRoot _

/-- The library directory starts at the workspace root, however this is spelled. -/
theorem Agrees.components_libraryDirectory
    (agrees : named.Agrees found) (namedAnchored : named.IsAnchored)
    (foundAnchored : found.IsAnchored) :
    named.merge.libraryDirectory.components = found.merge.libraryDirectory.components := by
  have sameLibrary : named.merge.libraryRoot = found.merge.libraryRoot :=
    (congrArg MergeConfig.libraryRoot agrees.settings :)
  rw [MergeConfig.libraryDirectory, MergeConfig.libraryDirectory, sameLibrary]
  exact Path.components_anchoredAt_congr namedAnchored.workspaceRoot foundAnchored.workspaceRoot
    agrees.workspaceRoot _

/-- The library is in one place, however the directory that the configuration starts at is spelled
and whatever the current directory is. -/
theorem libraryLocation_anchored_congr
    {name : Text}
    (config : FileConfig)
    (absolute : directory.isAbsolute = true) (baseAbsolute : base.isAbsolute = true)
    (same : base.components = directory.components)
    (noSlash : '/' ∉ name) (stored : tree.isFile (directory.join ⟨name⟩) = true)
    (here elsewhere : Location) :
    (config.anchored base).merge.libraryLocation { tree with current := here } =
      (config.anchored directory).merge.libraryLocation { tree with current := elsewhere } := by
  have fromBase : ∀ start : Path,
      (config.anchored start).merge.libraryDirectory =
        start.join (config.merge.workspaceRoot.join config.merge.libraryRoot) := by
    intro start
    rw [← Path.join_assoc, Path.join_eq_anchoredAt, Path.join_eq_anchoredAt]
    rfl
  rw [MergeConfig.libraryLocation, MergeConfig.libraryLocation, fromBase, fromBase,
    FileTree.normalize_of_isAbsolute here (Path.isAbsolute_join baseAbsolute _),
    FileTree.normalize_of_isAbsolute elsewhere (Path.isAbsolute_join absolute _),
    FileTree.normalize_join_congr absolute baseAbsolute same noSlash stored]

/-! ## Loading a configuration -/

theorem ofFile_of_isAbsolute (here : Location) (absolute : path.isAbsolute = true) :
    ofFile { tree with current := here } path = ofFile tree path := by
  rw [ofFile, ofFile, FileTree.read, FileTree.read, FileTree.locate_of_isAbsolute here absolute]
  rfl

theorem load_none_of_isFile
    (absolute : directory.isAbsolute = true)
    (stored : tree.isFile (directory.join (.ofString fileName)) = true) (here : Location) :
    load { tree with current := here } none directory =
      (ofFile tree (directory.join (.ofString fileName))).map (·.anchored directory) := by
  have fileAbsolute := Path.isAbsolute_join absolute (.ofString fileName)
  have storedHere :
      FileTree.isFile { tree with current := here } (directory.join (.ofString fileName)) =
        true := by
    rw [FileTree.isFile, FileTree.locate_of_isAbsolute here fileAbsolute]
    exact stored
  rw [load, if_pos storedHere, ofFile_of_isAbsolute here fileAbsolute]
  cases ofFile tree (directory.join (.ofString fileName)) <;> rfl

theorem load_some_of_isAbsolute
    (tree : FileTree) (absolute : path.isAbsolute = true) (inDirectory : path.parent? = some base)
    (here : Location) (cwd : Path) :
    load { tree with current := here } (some path) cwd =
      (ofFile tree path).map (·.anchored base) := by
  rw [load, Path.anchoredAt_of_isAbsolute absolute, ofFile_of_isAbsolute here absolute,
    inDirectory]
  cases ofFile tree path <;> rfl

/-- A configuration file in an absolute directory gives the same fault or the same configuration,
whether it is named or found there, and whatever the current directory is.  The directories in the
configuration are absolute and stay where they are when they are anchored elsewhere, and so does the
library directory. -/
theorem load_is_independent_of_current
    (absolute : directory.isAbsolute = true)
    (stored : tree.isFile (directory.join (.ofString fileName)) = true) :
    (∃ error, ∀ (here : Location) (cwd : Path),
      load { tree with current := here } none directory = .error error ∧
      load { tree with current := here } (some (directory.join (.ofString fileName))) cwd =
        .error error) ∨
    ∃ found named,
      (∀ (here : Location) (cwd : Path),
        load { tree with current := here } none directory = .ok found ∧
        load { tree with current := here } (some (directory.join (.ofString fileName))) cwd =
          .ok named) ∧
      named.Agrees found ∧ found.IsAnchored ∧ named.IsAnchored ∧
      (∀ base, found.anchored base = found ∧ named.anchored base = named) ∧
      found.merge.libraryDirectory.isAbsolute = true ∧
      named.merge.libraryDirectory.isAbsolute = true ∧
      named.merge.libraryDirectory.components = found.merge.libraryDirectory.components ∧
      ∀ here elsewhere : Location,
        named.merge.libraryLocation { tree with current := here } =
          found.merge.libraryLocation { tree with current := elsewhere } := by
  have fileAbsolute := Path.isAbsolute_join absolute (.ofString fileName)
  obtain ⟨base, inDirectory, baseAbsolute, same⟩ :
      ∃ base, (directory.join (.ofString fileName)).parent? = some base ∧
        base.isAbsolute = true ∧ base.components = directory.components :=
    Path.exists_parent?_join absolute (by decide) (by decide)
  have isFound := load_none_of_isFile absolute stored
  have isNamed := load_some_of_isAbsolute tree fileAbsolute inDirectory
  cases content : ofFile tree (directory.join (.ofString fileName)) with
  | error error =>
      rw [content] at isFound isNamed
      exact Or.inl ⟨error, fun here cwd => ⟨isFound here, isNamed here cwd⟩⟩
  | ok config =>
      rw [content] at isFound isNamed
      have agrees := config.agrees_anchored baseAbsolute absolute same
      have foundAnchored := config.isAnchored_anchored absolute
      have namedAnchored := config.isAnchored_anchored baseAbsolute
      refine Or.inr ⟨config.anchored directory, config.anchored base,
        fun here cwd => ⟨isFound here, isNamed here cwd⟩, agrees, foundAnchored, namedAnchored,
        fun other => ⟨foundAnchored.anchored_eq other, namedAnchored.anchored_eq other⟩,
        foundAnchored.isAbsolute_libraryDirectory, namedAnchored.isAbsolute_libraryDirectory,
        agrees.components_libraryDirectory namedAnchored foundAnchored, ?_⟩
      exact config.libraryLocation_anchored_congr absolute baseAbsolute same
        (by decide) stored

/-- A tree with a configuration file that holds an absolute directory and relative ones, of which
one leads up. -/
def settingsTree : FileTree :=
  .ofTexts ["home"]
    [(["w", "libmerge.toml"],
      "contest_dir = \"/c\"\noutput_dir = \"out\"\n\n[merge]\nlibrary_root = \"../lib\"\n")]

/-- The directory of the file is spelled with a dot at its end, which the path of the file does not
give back. -/
theorem load_settingsTree :
    settingsTree.isFile ((Path.ofString "/w/.").join (.ofString fileName)) = true ∧
    ∃ found named,
      (∀ (here : Location) (cwd : Path),
        load { settingsTree with current := here } none (.ofString "/w/.") = .ok found ∧
        load { settingsTree with current := here }
            (some ((Path.ofString "/w/.").join (.ofString fileName))) cwd = .ok named) ∧
      found.outputDirectory = .ofString "/w/./out" ∧ named.outputDirectory = .ofString "/w/out" ∧
      named.Agrees found ∧ named.contestDirectory = .ofString "/c" ∧
      ∀ here, named.merge.libraryLocation { settingsTree with current := here } =
        ⟨["lib".toList]⟩ := by
  have stored :
      settingsTree.isFile ((Path.ofString "/w/.").join (.ofString fileName)) = true := by
    decide +kernel
  have facts : ∃ found named,
      load settingsTree none (.ofString "/w/.") = .ok found ∧
      load settingsTree (some ((Path.ofString "/w/.").join (.ofString fileName)))
        (.ofString "/") = .ok named ∧
      found.outputDirectory = .ofString "/w/./out" ∧ named.outputDirectory = .ofString "/w/out" ∧
      named.contestDirectory = .ofString "/c" ∧
      found.merge.libraryLocation settingsTree = ⟨["lib".toList]⟩ :=
    ⟨(load settingsTree none (.ofString "/w/.")).toOption.getD {},
      (load settingsTree (some ((Path.ofString "/w/.").join (.ofString fileName)))
        (.ofString "/")).toOption.getD {}, by decide +kernel⟩
  obtain ⟨found, named, isFound, isNamed, foundOutput, namedOutput, contest, library⟩ := facts
  refine ⟨stored, found, named, ?_⟩
  rcases load_is_independent_of_current (by decide) stored with
    ⟨error, fails⟩ | ⟨config, other, loads, agrees, _, _, _, _, _, _, locations⟩
  · have impossible := (fails settingsTree.current (.ofString "/")).1.symm.trans isFound
    cases impossible
  · obtain ⟨first, second⟩ := loads settingsTree.current (.ofString "/")
    cases first.symm.trans isFound
    cases second.symm.trans isNamed
    refine ⟨loads, foundOutput, namedOutput, agrees, contest, fun here => ?_⟩
    exact (locations here settingsTree.current).trans library

end FileConfig

end Inliner
