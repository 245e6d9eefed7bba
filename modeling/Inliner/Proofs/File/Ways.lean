import Inliner.File.Tree

/-!
# Ways through a file tree

A way goes from directory to directory, and where it comes upon a link it goes on along the path
that the link stands for.  `FileTree.follow` computes where steps lead, and `FileTree.Leads` says
the same by rules: what holds wherever steps lead is proved along these rules.
-/

namespace Inliner

namespace FileTree

variable {tree other : FileTree} {start final : Location} {left more : Nat}

/-! ## One step -/

@[simp]
theorem follow_nil (tree : FileTree) (left : Nat) (start : Location) :
    follow tree left start [] = .ok (start, left) := by
  cases left <;> rfl

theorem follow_cons
    (tree : FileTree)
    (left : Nat)
    (start : Location)
    (step : Step)
    (rest : List Step) :
    follow tree left start (step :: rest) =
      if tree.hasDirectory start = false then
        .error (.refused .notDirectory)
      else
        match step with
        | .slash | .stay => follow tree left start rest
        | .up => follow tree left start.parent rest
        | .down name =>
            if tree.hasEntry (start.child name) then
              follow tree left (start.child name) rest
            else
              match tree.links.lookup (start.child name), left with
              | none, _ => .error (.vacant start name rest)
              | some _, 0 => .error (.refused .tooManyLinks)
              | some target, fewer + 1 =>
                  follow tree fewer (linkStart start target) (steps target ++ rest) := by
  cases directory : tree.hasDirectory start with
  | false => cases left <;> simp [follow, followUntilLink, directory]
  | true =>
      cases step with
      | slash | stay | up => cases left <;> simp [follow, followUntilLink, directory]
      | down name =>
          cases link : tree.links.lookup (start.child name) <;> cases left <;>
            simp [follow, followUntilLink, directory, link]

/-- A way is followed one step at a time, until it comes upon a link: then it may be any other way,
with one link fewer to follow. -/
theorem way_induction
    {motive : Nat → List Step → Prop}
    (nil : ∀ left, motive left [])
    (cons : ∀ left step rest, motive left rest →
      (∀ fewer steps, fewer < left → motive fewer steps) → motive left (step :: rest))
    (left : Nat)
    (steps : List Step) :
    motive left steps := by
  induction left using Nat.strongRecOn generalizing steps with
  | ind left later =>
      induction steps with
      | nil => exact nil left
      | cons step rest inductionHypothesis =>
          exact cons left step rest inductionHypothesis fun fewer steps isFewer =>
            later fewer isFewer steps

/-! ## Where steps lead -/

/-- Steps lead to a location, and of the links that may be followed some are left. -/
inductive Leads (tree : FileTree) : Nat → Location → List Step → Location → Nat → Prop
  | arrived (left : Nat) (location : Location) : Leads tree left location [] location left
  | idle {left more : Nat} {start final : Location} {step : Step} {rest : List Step} :
      tree.hasDirectory start = true →
      (step = .slash ∨ step = .stay) →
      Leads tree left start rest final more →
      Leads tree left start (step :: rest) final more
  | up {left more : Nat} {start final : Location} {rest : List Step} :
      tree.hasDirectory start = true →
      Leads tree left start.parent rest final more →
      Leads tree left start (.up :: rest) final more
  | down {left more : Nat} {start final : Location} {name : Text} {rest : List Step} :
      tree.hasDirectory start = true →
      tree.hasEntry (start.child name) = true →
      Leads tree left (start.child name) rest final more →
      Leads tree left start (.down name :: rest) final more
  | link {left more : Nat} {start final : Location} {name : Text} {target : Path}
      {rest : List Step} :
      tree.hasDirectory start = true →
      tree.hasEntry (start.child name) = false →
      tree.links.lookup (start.child name) = some target →
      Leads tree left (linkStart start target) (steps target ++ rest) final more →
      Leads tree (left + 1) start (.down name :: rest) final more

theorem leads_of_follow
    {steps : List Step}
    (followed : follow tree left start steps = .ok (final, more)) :
    tree.Leads left start steps final more := by
  induction left, steps using way_induction generalizing start with
  | nil left =>
      rw [follow_nil] at followed
      obtain ⟨rfl, rfl⟩ := Prod.mk.inj (Except.ok.inj followed)
      exact .arrived left start
  | cons left step rest onward jump =>
      rw [follow_cons] at followed
      split at followed
      · cases followed
      next directory =>
        rw [Bool.not_eq_false] at directory
        cases step with
        | slash => exact .idle directory (Or.inl rfl) (onward followed)
        | stay => exact .idle directory (Or.inr rfl) (onward followed)
        | up => exact .up directory (onward followed)
        | down name =>
            dsimp only at followed
            split at followed
            next entry => exact .down directory entry (onward followed)
            next noEntry =>
              split at followed
              next => cases followed
              next => cases followed
              next target fewer isLink =>
                exact .link directory (by simpa using noEntry) isLink
                  (jump fewer _ (Nat.lt_succ_self fewer) followed)

theorem Leads.follow_eq
    {steps : List Step}
    (leads : tree.Leads left start steps final more) :
    follow tree left start steps = .ok (final, more) := by
  induction leads with
  | arrived left location => exact follow_nil tree left location
  | idle directory isIdle _ inductionHypothesis =>
      rcases isIdle with rfl | rfl <;> simpa [follow_cons, directory] using inductionHypothesis
  | up directory _ inductionHypothesis =>
      simpa [follow_cons, directory] using inductionHypothesis
  | down directory entry _ inductionHypothesis =>
      simpa [follow_cons, directory, entry] using inductionHypothesis
  | link directory noEntry isLink _ inductionHypothesis =>
      simpa [follow_cons, directory, noEntry, isLink] using inductionHypothesis

theorem leads_of_walk
    {steps : List Step}
    (walked : walk tree start steps = .ok final) :
    ∃ more, tree.Leads maxLinks start steps final more := by
  unfold walk at walked
  split at walked
  next reached more followed =>
    obtain rfl := Except.ok.inj walked
    exact ⟨more, leads_of_follow followed⟩
  next => cases walked

theorem Leads.walk_eq
    {steps : List Step}
    (leads : tree.Leads maxLinks start steps final more) :
    walk tree start steps = .ok final := by
  rw [walk, leads.follow_eq]

theorem leads_of_locate
    {path : Path}
    (located : tree.locate path = .ok final) :
    ∃ more, tree.Leads maxLinks (tree.start path) (steps path) final more := by
  unfold locate at located
  split at located
  · cases located
  · exact leads_of_walk located

theorem locate_eq_walk
    {path : Path}
    (written : path.text ≠ []) :
    tree.locate path = walk tree (tree.start path) (steps path) :=
  if_neg written

theorem exists_locate_of_isFile
    {path : Path}
    (isFile : tree.isFile path = true) :
    ∃ location, tree.locate path = .ok location ∧ (tree.content? location).isSome = true := by
  unfold FileTree.isFile at isFile
  split at isFile
  next location located => exact ⟨location, located, isFile⟩
  next => cases isFile

theorem hasDirectory_eq_false_of_content?
    {location : Location}
    (present : (tree.content? location).isSome = true) :
    tree.hasDirectory location = false := by
  unfold content? at present
  split at present
  · cases present
  next isNot => simpa using isNot

/-! ## Ways in parts -/

/-- The obstacle if more steps come after it. -/
def Obstacle.before (second : List Step) : Obstacle → Obstacle
  | .vacant directory name rest => .vacant directory name (rest ++ second)
  | .refused error => .refused error

theorem follow_append
    (tree : FileTree)
    (left : Nat)
    (start : Location)
    (first second : List Step) :
    follow tree left start (first ++ second) =
      match follow tree left start first with
      | .ok (reached, more) => follow tree more reached second
      | .error obstacle => .error (obstacle.before second) := by
  induction left, first using way_induction generalizing start with
  | nil left => rw [List.nil_append, follow_nil]
  | cons left step rest onward jump =>
      rw [List.cons_append, follow_cons, follow_cons]
      split
      · rfl
      · cases step with
        | slash | stay => exact onward start
        | up => exact onward start.parent
        | down name =>
            dsimp only
            split
            · exact onward (start.child name)
            · cases tree.links.lookup (start.child name) with
              | none => rfl
              | some target =>
                  cases left with
                  | zero => rfl
                  | succ fewer =>
                      dsimp only
                      rw [← List.append_assoc]
                      exact jump fewer _ (Nat.lt_succ_self fewer) _

theorem Leads.exists_of_append
    {first second : List Step}
    (leads : tree.Leads left start (first ++ second) final more) :
    ∃ reached between,
      tree.Leads left start first reached between ∧
        tree.Leads between reached second final more := by
  have followed := leads.follow_eq
  rw [follow_append] at followed
  split at followed
  next reached between arrived =>
    exact ⟨reached, between, leads_of_follow arrived, leads_of_follow followed⟩
  next => cases followed

/-! ## Steps that lead nowhere else -/

/-- Whether a step goes to another place; nothing between two slashes and a dot do not. -/
def Step.moves : Step → Bool
  | .slash | .stay => false
  | .up | .down _ => true

theorem Leads.append_idle
    {idles steps : List Step}
    (directory : tree.hasDirectory start = true)
    (idle : ∀ step ∈ idles, step.moves = false)
    (leads : tree.Leads left start steps final more) :
    tree.Leads left start (idles ++ steps) final more := by
  induction idles with
  | nil => exact leads
  | cons step idles inductionHypothesis =>
      have stays : step = .slash ∨ step = .stay := by
        have first := idle step List.mem_cons_self
        cases step <;> simp_all [Step.moves]
      exact .idle directory stays
        (inductionHypothesis fun other member => idle other (List.mem_cons_of_mem _ member))

/-- Steps that lead to a directory lead there whatever slashes and dots are put in or left out. -/
theorem Leads.of_filter_eq
    {steps others : List Step}
    (leads : tree.Leads left start steps final more)
    (inDirectory : tree.hasDirectory final = true)
    (same : others.filter Step.moves = steps.filter Step.moves) :
    tree.Leads left start others final more := by
  induction leads generalizing others with
  | arrived left location =>
      have idle : ∀ step ∈ others, step.moves = false := by
        simpa [List.filter_eq_nil_iff] using same
      simpa using Leads.append_idle inDirectory idle (.arrived left location)
  | idle directory isIdle _ inductionHypothesis =>
      apply inductionHypothesis inDirectory
      rcases isIdle with rfl | rfl <;> simpa [Step.moves] using same
  | up directory _ inductionHypothesis =>
      rw [List.filter_cons_of_pos (by rfl)] at same
      obtain ⟨idles, rest, rfl, idle, _, restSame⟩ := List.filter_eq_cons_iff.mp same
      exact Leads.append_idle directory (by simpa using idle)
        (.up directory (inductionHypothesis inDirectory restSame))
  | down directory entry _ inductionHypothesis =>
      rw [List.filter_cons_of_pos (by rfl)] at same
      obtain ⟨idles, rest, rfl, idle, _, restSame⟩ := List.filter_eq_cons_iff.mp same
      exact Leads.append_idle directory (by simpa using idle)
        (.down directory entry (inductionHypothesis inDirectory restSame))
  | link directory noEntry isLink _ inductionHypothesis =>
      rw [List.filter_cons_of_pos (by rfl)] at same
      obtain ⟨idles, rest, rfl, idle, _, restSame⟩ := List.filter_eq_cons_iff.mp same
      refine Leads.append_idle directory (by simpa using idle)
        (.link directory noEntry isLink (inductionHypothesis inDirectory ?_))
      rw [List.filter_append, List.filter_append, restSame]

/-! ## Trees with the same ways -/

/-- Steps lead to the same place in trees with the same directories, entries and links. -/
theorem follow_congr
    (directories : ∀ place, other.hasDirectory place = tree.hasDirectory place)
    (entries : ∀ place, other.hasEntry place = tree.hasEntry place)
    (links : other.links = tree.links)
    (left : Nat)
    (start : Location)
    (steps : List Step) :
    follow other left start steps = follow tree left start steps := by
  induction left, steps using way_induction generalizing start with
  | nil left => rw [follow_nil, follow_nil]
  | cons left step rest onward jump =>
      rw [follow_cons, follow_cons, directories]
      cases step with
      | slash | stay | up => simp only [onward]
      | down name =>
          simp only [entries, links, onward]
          cases tree.links.lookup (start.child name) with
          | none => rfl
          | some target =>
              cases left with
              | zero => rfl
              | succ fewer => simp only [jump fewer _ (Nat.lt_succ_self fewer)]

theorem walk_congr
    (directories : ∀ place, other.hasDirectory place = tree.hasDirectory place)
    (entries : ∀ place, other.hasEntry place = tree.hasEntry place)
    (links : other.links = tree.links)
    (start : Location)
    (steps : List Step) :
    walk other start steps = walk tree start steps := by
  rw [walk, walk, follow_congr directories entries links]

end FileTree

end Inliner
