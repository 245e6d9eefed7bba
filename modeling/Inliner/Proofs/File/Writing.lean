import Inliner.Proofs.File.Locations
import Inliner.Proofs.File.Replacement

/-!
# What writing changes

A directory is made where nothing was before, so making directories changes the content of no file,
whether it comes to its end or not.  A text is written to the file that the path leads to
afterwards, and the content of every other file is as before; a device takes the text and nothing
changes.
-/

namespace Inliner

namespace FileTree

variable {tree after : FileTree} {above location other : Location} {name : Text}

/-! ## Directories that are made -/

/-- The files of a tree have the same contents in another one, and there are no more files. -/
def SameContents (tree after : FileTree) : Prop :=
  ∀ location, after.content? location = tree.content? location

theorem SameContents.refl (tree : FileTree) : tree.SameContents tree :=
  fun _ => rfl

theorem SameContents.trans
    {last : FileTree}
    (first : tree.SameContents after)
    (second : after.SameContents last) :
    tree.SameContents last :=
  fun location => (second location).trans (first location)

/-- A directory that is added has no directories above it but those on the way to it. -/
theorem prefix_of_hasDirectory_addDirectory
    (isNew : tree.hasDirectory other = false)
    (directory : (tree.addDirectory location).hasDirectory other = true) :
    other.names <+: location.names := by
  unfold hasDirectory at isNew directory
  rw [Bool.or_eq_false_iff] at isNew
  rw [addDirectory, List.any_append, isNew.1, isNew.2, Bool.false_or, Bool.false_or,
    List.any_eq_true] at directory
  obtain ⟨added, member, inAdded⟩ := directory
  rw [List.isPrefixOf_iff_prefix] at inAdded
  refine inAdded.trans ?_
  rcases List.mem_append.mp (List.mem_of_mem_filter member) with isAncestor | isLocation
  · obtain ⟨count, _, rfl⟩ := List.mem_map.mp isAncestor
    exact List.take_prefix count location.names
  · obtain rfl := List.mem_singleton.mp isLocation
    exact List.prefix_rfl

/-- A directory that is made in another one, where nothing is, changes the content of no file. -/
theorem sameContents_addDirectory
    (inDirectory : tree.hasDirectory above = true)
    (vacant : tree.hasEntry (above.child name) = false) :
    tree.SameContents (tree.addDirectory (above.child name)) := by
  rw [hasEntry, Bool.or_eq_false_iff, Bool.or_eq_false_iff] at vacant
  obtain ⟨⟨noFile, noDirectory⟩, _⟩ := vacant
  intro location
  by_cases isOld : tree.hasDirectory location = true
  · have isStill : (tree.addDirectory (above.child name)).hasDirectory location = true := by
      unfold hasDirectory at isOld ⊢
      rw [addDirectory, List.any_append, ← Bool.or_assoc, isOld, Bool.true_or]
    rw [content?, content?, if_pos isOld, if_pos isStill]
  · by_cases isNew : (tree.addDirectory (above.child name)).hasDirectory location = true
    · -- Only the new directory is one now and was none before.
      have same : location = above.child name := by
        rcases List.prefix_concat_iff.mp (prefix_of_hasDirectory_addDirectory
          (Bool.not_eq_true _ ▸ isOld) isNew) with whole | onTheWay
        · cases location
          exact congrArg Location.mk whole
        · exact absurd (hasDirectory_above inDirectory onTheWay) isOld
      rw [same] at isNew ⊢
      rw [Option.isSome_eq_false_iff, Option.isNone_iff_eq_none] at noFile
      rw [noFile, content?, if_pos isNew]
    · rw [content?, content?, if_neg isOld, if_neg isNew]
      rfl

theorem sameContents_of_makeDirectory
    {components : List Component}
    (made : tree.makeDirectory components = .ok after) :
    tree.SameContents after := by
  unfold makeDirectory at made
  split at made
  · cases made
  next last before =>
    dsimp only at made
    split at made
    next name =>
      split at made
      next => cases made
      next above reached =>
        split at made
        next => cases made
        next directory =>
          split at made
          next => cases made
          next free =>
            rw [Bool.not_eq_true, Bool.or_eq_false_iff] at free
            rw [← Except.ok.inj made]
            exact sameContents_addDirectory (by simpa using directory) free.1
    all_goals
      split at made <;> cases made

/-- Making directories changes the content of no file, also if it fails on the way. -/
theorem sameContents_makeDirectories (tree : FileTree) (components : List Component) :
    tree.SameContents (tree.makeDirectories components).1 := by
  induction components with
  | nil => exact .refl tree
  | cons last before inductionHypothesis =>
      unfold makeDirectories
      dsimp only
      split
      next made isMade => exact sameContents_of_makeDirectory isMade
      next =>
        split
        next made error failed =>
          rw [failed] at inductionHypothesis
          exact inductionHypothesis
        next made prepared =>
          rw [prepared] at inductionHypothesis
          split
          next result isMade =>
            exact inductionHypothesis.trans (sameContents_of_makeDirectory isMade)
          next => split <;> exact inductionHypothesis
      next => split <;> exact .refl tree

/-! ## Files that are written -/

/-- A path leads in the tree afterwards to a file of this text, and every other file has the
content that it had before. -/
def Rewrites (tree after : FileTree) (path : Path) (text : Text) : Prop :=
  ∃ target,
    after.locate path = .ok target ∧
      after.content? target = some (.text text) ∧
      ∀ other, other ≠ target → after.content? other = tree.content? other

theorem SameContents.rewrites
    {last : FileTree}
    {path : Path}
    {text : Text}
    (first : tree.SameContents after)
    (second : after.Rewrites last path text) :
    tree.Rewrites last path text := by
  obtain ⟨target, leads, written, others⟩ := second
  exact ⟨target, leads, written, fun other isOther => (others other isOther).trans (first other)⟩

/-- Whether a path leads to a device. -/
def isDevice (tree : FileTree) (path : Path) : Bool :=
  match tree.locate path with
  | .ok location => (tree.content? location).isNone && !tree.hasDirectory location
  | .error _ => false

/-- A path takes a text: a file is rewritten, or a device takes the text and no content changes. -/
def Takes (tree after : FileTree) (path : Path) (text : Text) : Prop :=
  tree.Rewrites after path text ∨ (after.isDevice path = true ∧ tree.SameContents after)

theorem SameContents.takes
    {last : FileTree}
    {path : Path}
    {text : Text}
    (first : tree.SameContents after)
    (second : after.Takes last path text) :
    tree.Takes last path text := by
  rcases second with rewrites | ⟨device, same⟩
  · exact Or.inl (first.rewrites rewrites)
  · exact Or.inr ⟨device, first.trans same⟩

/-- Where steps find nothing there is a directory without such a name. -/
theorem vacant_of_follow
    {left : Nat}
    {start : Location}
    {steps rest : List Step}
    (missing : follow tree left start steps = .error (.vacant above name rest)) :
    tree.hasDirectory above = true ∧ tree.hasEntry (above.child name) = false ∧
      tree.links.lookup (above.child name) = none := by
  induction left, steps using way_induction generalizing start with
  | nil left =>
      rw [follow_nil] at missing
      cases missing
  | cons left step later onward jump =>
      rw [follow_cons] at missing
      split at missing
      · cases missing
      next directory =>
        cases step with
        | slash | stay | up => exact onward missing
        | down name =>
            dsimp only at missing
            split at missing
            next => exact onward missing
            next noEntry =>
              split at missing
              next noLink =>
                cases missing
                exact ⟨by simpa using directory, by simpa using noEntry, noLink⟩
              next => cases missing
              next fewer _ => exact jump fewer _ (Nat.lt_succ_self fewer) missing

/-- The way to a name that is not there leads to it once there is something of this name. -/
theorem leads_of_vacant
    {left : Nat}
    {start : Location}
    {steps : List Step}
    (missing : follow tree left start steps = .error (.vacant above name []))
    (directories : ∀ place, after.hasDirectory place = tree.hasDirectory place)
    (entries : ∀ place, after.hasEntry place = (place == above.child name || tree.hasEntry place))
    (links : after.links = tree.links) :
    ∃ more, after.Leads left start steps (above.child name) more := by
  obtain ⟨_, _, noLink⟩ := vacant_of_follow missing
  induction left, steps using way_induction generalizing start with
  | nil left =>
      rw [follow_nil] at missing
      cases missing
  | cons left step later onward jump =>
      rw [follow_cons] at missing
      split at missing
      · cases missing
      next isDirectory =>
        have directory : after.hasDirectory start = true := by
          rw [directories]
          simpa using isDirectory
        cases step with
        | slash =>
            obtain ⟨more, leads⟩ := onward missing
            exact ⟨more, .idle directory (Or.inl rfl) leads⟩
        | stay =>
            obtain ⟨more, leads⟩ := onward missing
            exact ⟨more, .idle directory (Or.inr rfl) leads⟩
        | up =>
            obtain ⟨more, leads⟩ := onward missing
            exact ⟨more, .up directory leads⟩
        | down next =>
            dsimp only at missing
            split at missing
            next entry =>
              obtain ⟨more, leads⟩ := onward missing
              exact ⟨more, .down directory (by rw [entries, entry, Bool.or_true]) leads⟩
            next noEntry =>
              split at missing
              next =>
                cases missing
                exact ⟨_, .down directory (by rw [entries, beq_self_eq_true, Bool.true_or])
                  (.arrived _ _)⟩
              next => cases missing
              next target fewer isLink =>
                obtain ⟨more, leads⟩ := jump fewer _ (Nat.lt_succ_self fewer) missing
                -- The link does not stand where the new name does, since there was none.
                have different : start.child next ≠ above.child name := by
                  intro same
                  rw [same, noLink] at isLink
                  cases isLink
                have stillNoEntry : after.hasEntry (start.child next) = false := by
                  rw [entries, beq_eq_false_iff_ne.mpr different, Bool.false_or]
                  simpa using noEntry
                exact ⟨more, .link directory stillNoEntry (links ▸ isLink) leads⟩

/-- A file that is made where nothing was is found there, and other files are as before. -/
theorem rewrites_setContent_of_vacant
    {path : Path}
    (text : Text)
    (written : path.text ≠ [])
    (missing :
      follow tree maxLinks (tree.start path) (steps path) = .error (.vacant above name [])) :
    tree.Rewrites (tree.setContent (above.child name) (.text text)) path text := by
  obtain ⟨_, noEntry, _⟩ := vacant_of_follow missing
  have notDirectory : tree.hasDirectory (above.child name) = false := by
    rw [hasEntry, Bool.or_eq_false_iff, Bool.or_eq_false_iff] at noEntry
    exact noEntry.1.2
  have contents := content?_setContent notDirectory (.text text)
  have entries : ∀ place,
      (tree.setContent (above.child name) (.text text)).hasEntry place =
        (place == above.child name || tree.hasEntry place) := by
    intro place
    by_cases same : place = above.child name
    · rw [same, hasEntry, contents]
      simp
    · have sameDevices :
          (tree.setContent (above.child name) (.text text)).devices = tree.devices := rfl
      rw [beq_eq_false_iff_ne.mpr same, Bool.false_or, hasEntry, contents, if_neg same,
        hasDirectory_setContent, sameDevices, hasEntry]
  obtain ⟨more, leads⟩ := leads_of_vacant missing
    (hasDirectory_setContent tree (above.child name) · (.text text)) entries rfl
  refine ⟨above.child name, ?_, ?_, ?_⟩
  · rw [locate_eq_walk written]
    exact leads.walk_eq
  · rw [contents, if_pos rfl]
  · intro other isOther
    rw [contents, if_neg isOther]

/-- A file that is there gets its text in its place, and other files are as before. -/
theorem rewrites_setContent_of_present
    {path : Path}
    (text : Text)
    (located : tree.locate path = .ok location)
    (present : (tree.content? location).isSome = true) :
    tree.Rewrites (tree.setContent location (.text text)) path text := by
  have notDirectory := hasDirectory_eq_false_of_content? present
  have entry : tree.hasEntry location = true := by simp [hasEntry, present]
  have contents := content?_setContent notDirectory (.text text)
  refine ⟨location, ?_, ?_, ?_⟩
  · rw [locate_setContent notDirectory entry, located]
  · rw [contents, if_pos rfl]
  · intro other isOther
    rw [contents, if_neg isOther]

/-- Writing to a path changes the file that the path leads to and no other one, unless the path
leads to a device. -/
theorem takes_of_write
    {path : Path}
    {text : Text}
    (written : tree.write path text = .ok after) :
    tree.Takes after path text := by
  unfold write at written
  split at written
  · cases written
  next spelled =>
    split at written
    next location more followed =>
      have leads := leads_of_follow followed
      have located : tree.locate path = .ok location := by
        rw [locate_eq_walk spelled]
        exact leads.walk_eq
      split at written
      next present =>
        rw [← Except.ok.inj written]
        exact Or.inl (rewrites_setContent_of_present text located present)
      next absent =>
        split at written
        next => cases written
        next notDirectory =>
          obtain rfl := Except.ok.inj written
          refine Or.inr ⟨?_, .refl tree⟩
          rw [isDevice, located]
          simpa [notDirectory] using absent
    next directory name rest missing =>
      split at written
      next noMore =>
        rw [noMore] at missing
        rw [← Except.ok.inj written]
        exact Or.inl (rewrites_setContent_of_vacant text spelled missing)
      next => split at written <;> cases written
    next => cases written

end FileTree

end Inliner
