import Inliner.Proofs.File.Paths

/-!
# A file with another content

When the content of a file is replaced, the same paths lead to the same places as before, so a
configuration is as good as it was.
-/

namespace Inliner

namespace FileTree

variable {tree : FileTree} {location : Location}

theorem lookup_map_replace
    (files : List (Location × Content))
    (location other : Location)
    (content : Content) :
    (files.map fun file => if file.1 = location then (location, content) else file).lookup other =
      if other = location then (files.lookup other).map fun _ => content
      else files.lookup other := by
  induction files with
  | nil => split <;> rfl
  | cons file files inductionHypothesis =>
      obtain ⟨place, old⟩ := file
      by_cases wanted : other = place
      · subst wanted
        by_cases sameFile : other = location
        · subst sameFile
          simp
        · simp [sameFile]
      · have notWanted : (other == place) = false := beq_eq_false_iff_ne.mpr wanted
        by_cases sameFile : place = location
        · subst sameFile
          simp [List.lookup_cons, notWanted, inductionHypothesis]
        · simp [List.lookup_cons, notWanted, sameFile, inductionHypothesis]

theorem hasDirectory_setContent
    (tree : FileTree)
    (location other : Location)
    (content : Content) :
    (tree.setContent location content).hasDirectory other = tree.hasDirectory other :=
  rfl

theorem lookup_files_setContent
    (notDirectory : tree.hasDirectory location = false)
    (content : Content)
    (other : Location) :
    (tree.setContent location content).files.lookup other =
      if other = location then some content else tree.files.lookup other := by
  have sameLookup : tree.content? location = tree.files.lookup location :=
    if_neg (by simp [notDirectory])
  have files :
      (tree.setContent location content).files =
        if (tree.files.lookup location).isSome then
          tree.files.map fun file => if file.1 = location then (location, content) else file
        else
          tree.files ++ [(location, content)] := by
    rw [setContent, sameLookup]
  rw [files]
  cases held : tree.files.lookup location with
  | none =>
      rw [if_neg (by simp), List.lookup_append]
      by_cases same : other = location
      · rw [if_pos same, same, held]
        simp
      · have different : (other == location) = false := beq_eq_false_iff_ne.mpr same
        simp [List.lookup_cons, different, same]
  | some old =>
      rw [Option.isSome_some, if_pos rfl, lookup_map_replace]
      by_cases same : other = location
      · rw [if_pos same, if_pos same, same, held]
        rfl
      · rw [if_neg same, if_neg same]

theorem content?_setContent
    (notDirectory : tree.hasDirectory location = false)
    (content : Content)
    (other : Location) :
    (tree.setContent location content).content? other =
      if other = location then some content else tree.content? other := by
  unfold content?
  rw [hasDirectory_setContent, lookup_files_setContent notDirectory]
  by_cases same : other = location
  · simp [same, notDirectory]
  · simp [same]

section Present

variable (notDirectory : tree.hasDirectory location = false)
  (entry : tree.hasEntry location = true) (content : Content)
include notDirectory entry

theorem hasEntry_setContent (other : Location) :
    (tree.setContent location content).hasEntry other = tree.hasEntry other := by
  have sameDevices : (tree.setContent location content).devices = tree.devices := rfl
  by_cases same : other = location
  · rw [same, entry, hasEntry, content?_setContent notDirectory]
    simp
  · simp only [hasEntry, content?_setContent notDirectory, hasDirectory_setContent, sameDevices,
      if_neg same]

theorem walk_setContent (start : Location) (steps : List Step) :
    walk (tree.setContent location content) start steps = walk tree start steps :=
  walk_congr (tree.hasDirectory_setContent location · content)
    (hasEntry_setContent notDirectory entry content) rfl start steps

theorem locate_setContent (path : Path) :
    (tree.setContent location content).locate path = tree.locate path := by
  unfold locate
  rw [walk_setContent notDirectory entry]
  rfl

theorem normalize_setContent (path : Path) :
    (tree.setContent location content).normalize path = tree.normalize path := by
  unfold normalize
  rw [locate_setContent notDirectory entry]
  rfl

end Present

/-! ## Replacing what a location leads to -/

theorem hasEntry_of_place
    {place : Location}
    (placed : tree.place location = .ok place) :
    tree.hasEntry place = true := by
  unfold FileTree.place at placed
  split at placed
  next held =>
    rw [← Except.ok.inj placed, hasEntry, held]
    rfl
  next =>
    obtain ⟨more, leads⟩ := leads_of_walk placed
    exact (leads.holds tree.holds_root).2

theorem exists_place_of_readAt
    {text : Text}
    (readable : tree.readAt location = .ok text) :
    ∃ place, tree.place location = .ok place ∧ tree.hasDirectory place = false := by
  unfold readAt at readable
  split at readable
  next => cases readable
  next place placed =>
    refine ⟨place, placed, ?_⟩
    unfold textAt at readable
    split at readable
    next content found => exact hasDirectory_eq_false_of_content? (by rw [found]; rfl)
    next => cases readable
    next =>
      split at readable
      · cases readable
      next notDirectory => simpa using notDirectory

/-- A tree in which the file to which a location leads holds this text. -/
def replacedAt (tree : FileTree) (location : Location) (text : Text) : FileTree :=
  match tree.place location with
  | .ok place => tree.setContent place (.text text)
  | .error _ => tree

section Replaced

variable {original : Text} (readable : tree.readAt location = .ok original) (text : Text)
include readable

theorem normalize_replacedAt (path : Path) :
    (tree.replacedAt location text).normalize path = tree.normalize path := by
  obtain ⟨place, placed, notDirectory⟩ := exists_place_of_readAt readable
  rw [replacedAt, placed]
  exact normalize_setContent notDirectory (hasEntry_of_place placed) _ path

theorem readAt_replacedAt : (tree.replacedAt location text).readAt location = .ok text := by
  obtain ⟨place, placed, notDirectory⟩ := exists_place_of_readAt readable
  have contents := content?_setContent notDirectory (.text text)
  have samePlace : (tree.setContent place (.text text)).place location = .ok place := by
    unfold FileTree.place at placed ⊢
    rw [contents, walk_setContent notDirectory (hasEntry_of_place placed)]
    by_cases isPlace : location = place
    · rw [if_pos isPlace, isPlace]
      rfl
    · rw [if_neg isPlace]
      exact placed
  rw [replacedAt, placed]
  dsimp only
  rw [readAt, samePlace]
  dsimp only
  rw [textAt, contents, if_pos rfl]

end Replaced

end FileTree

/-- Whether a configuration can be used depends on where its paths lead only. -/
theorem MergeConfig.validate_congr
    (config : MergeConfig)
    {tree other : FileTree}
    (same : ∀ path, other.normalize path = tree.normalize path) :
    config.validate other = config.validate tree := by
  have library : config.libraryLocation other = config.libraryLocation tree := same _
  have workspace : config.workspaceLocation other = config.workspaceLocation tree := same _
  unfold validate libraryName?
  rw [library, workspace]

end Inliner
