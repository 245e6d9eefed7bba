import Inliner.Merge.Resolution
import Inliner.Proofs.File.Paths
import Mathlib.Data.List.TakeWhile

/-!
# Paths of locations

Where there are no links, the location of a path can be told from its components alone, whether
something is there or not.  For a location with plain names the operations on paths act on these
names: the parent of its path is the path of its parent, joining a name goes down to this name, and
an extension is put behind the last name.
-/

namespace Inliner

/-! ## Names of a path -/

namespace Path

theorem names_append_slash (front back : Text) :
    names ⟨front ++ '/' :: back⟩ = names ⟨front⟩ ++ names ⟨back⟩ := by
  simp only [names, pieces]
  rw [Text.splitAt_append_separator, List.filterMap_append]

theorem components_of_isAbsolute {path : Path} (absolute : path.isAbsolute = true) :
    path.components = .root :: path.names := by
  rw [components, if_pos absolute]
  rfl

theorem isAbsolute_append {front : Text} (nonempty : front ≠ []) (back : Text) :
    isAbsolute ⟨front ++ back⟩ = isAbsolute ⟨front⟩ := by
  cases front with
  | nil => exact absurd rfl nonempty
  | cons first rest => rfl

theorem isAbsolute_of_not_mem {text : Text} (noSlash : '/' ∉ text) :
    isAbsolute ⟨text⟩ = false := by
  cases text with
  | nil => rfl
  | cons first rest =>
      have notSlash : first ≠ '/' := by
        rintro rfl
        exact noSlash List.mem_cons_self
      simpa [isAbsolute] using notSlash

theorem names_join
    {base path : Path}
    (relative : path.isAbsolute = false) :
    (base.join path).names = base.names ++ path.names := by
  have nothing : names ⟨[]⟩ = [] := rfl
  rw [join, if_neg (by simp [relative])]
  by_cases empty : base.text = []
  · have sameBase : base = ⟨[]⟩ := congrArg Path.mk empty
    rw [if_pos (Or.inl empty), sameBase, nothing]
    rfl
  · by_cases ends : base.text.getLast? = some '/'
    · obtain ⟨front, split⟩ := List.getLast?_eq_some_iff.mp ends
      have sameBase : base = ⟨front ++ '/' :: []⟩ := congrArg Path.mk split
      rw [if_pos (Or.inr ends), split, List.append_assoc, List.singleton_append,
        names_append_slash, sameBase, names_append_slash, nothing, List.append_nil]
    · rw [if_neg (by simp [empty, ends]), names_append_slash]

theorem isAbsolute_join
    {base : Path}
    (absolute : base.isAbsolute = true)
    (path : Path) :
    (base.join path).isAbsolute = true := by
  have first : base.text.head? = some '/' := eq_of_beq absolute
  obtain ⟨rest, split⟩ := List.head?_eq_some_iff.mp first
  unfold join
  split
  · assumption
  · split <;> simp [isAbsolute, split]

end Path

namespace Location

theorem resolve_eq_foldl_names (start : Location) (path : Path) :
    resolve start path =
      path.names.foldl follow (if path.isAbsolute then root else start) := by
  unfold resolve Path.components
  cases absolute : path.isAbsolute with
  | true => rfl
  | false =>
      simp only [Bool.false_eq_true, if_false]
      by_cases dot : path.pieces.head? = some ['.']
      · rw [if_pos dot]
        rfl
      · rw [if_neg dot]
        rfl

end Location

/-! ## The location of a path -/

namespace FileTree

variable {tree : FileTree}

/-- The place to which a step goes if no link stands there. -/
def Step.take (location : Location) : Step → Location
  | .slash | .stay => location
  | .up => location.parent
  | .down name => location.child name

theorem Leads.eq_foldl_take
    {left more : Nat}
    {start final : Location}
    {steps : List Step}
    (leads : tree.Leads left start steps final more)
    (noLinks : tree.links = []) :
    final = steps.foldl Step.take start := by
  induction leads with
  | arrived => rfl
  | idle _ isIdle _ inductionHypothesis =>
      rcases isIdle with rfl | rfl <;> exact inductionHypothesis
  | up _ _ inductionHypothesis => exact inductionHypothesis
  | down _ _ _ inductionHypothesis => exact inductionHypothesis
  | link _ _ isLink _ _ =>
      rw [noLinks] at isLink
      cases isLink

theorem foldl_take_steps (start : Location) (pieces : List Text) :
    (pieces.map Step.ofPiece).foldl Step.take start =
      (pieces.filterMap Component.ofPiece?).foldl Location.follow start := by
  induction pieces generalizing start with
  | nil => rfl
  | cons piece pieces inductionHypothesis =>
      rw [List.map_cons, List.foldl_cons, inductionHypothesis]
      by_cases ignored : piece = [] ∨ piece = ['.']
      · have noName : Component.ofPiece? piece = none := if_pos ignored
        rw [List.filterMap_cons_none noName]
        rcases ignored with rfl | rfl <;> rfl
      · obtain ⟨notEmpty, notDot⟩ := not_or.mp ignored
        by_cases isUp : piece = ['.', '.']
        · subst isUp
          rfl
        · have isName : Component.ofPiece? piece = some (.normal piece) := by
            rw [Component.ofPiece?, if_neg ignored, if_neg isUp]
          have isDown : Step.ofPiece piece = .down piece := by
            rw [Step.ofPiece, if_neg notEmpty, if_neg notDot, if_neg isUp]
          rw [List.filterMap_cons_some isName, List.foldl_cons, isDown]
          rfl

/-- Without links the location of a path depends on its components and the current directory only,
whatever the files are. -/
theorem normalize_eq_resolve (noLinks : tree.links = []) (path : Path) :
    tree.normalize path = .resolve .root (path.anchoredAt tree.current.path) := by
  unfold normalize
  split
  next location located =>
    obtain ⟨more, leads⟩ := leads_of_locate located
    rw [leads.eq_foldl_take noLinks, steps, foldl_take_steps, start, Path.anchoredAt]
    by_cases absolute : path.isAbsolute = true
    · rw [if_pos absolute, if_pos absolute, Location.resolve_eq_foldl_names, if_pos absolute]
      rfl
    · have currentAbsolute : tree.current.path.isAbsolute = true := rfl
      have anchored := Path.isAbsolute_join currentAbsolute path
      rw [if_neg absolute, if_neg absolute, Location.resolve_eq_foldl_names,
        Location.resolve_eq_foldl_names, if_pos anchored, if_pos currentAbsolute,
        Path.names_join (by simpa using absolute), List.foldl_append]
      rfl
  next => rfl

theorem normalize_congr
    {tree other : FileTree}
    (noLinks : tree.links = [])
    (otherNoLinks : other.links = [])
    (sameDirectory : other.current = tree.current)
    (path : Path) :
    other.normalize path = tree.normalize path := by
  rw [normalize_eq_resolve noLinks, normalize_eq_resolve otherNoLinks, sameDirectory]

end FileTree

/-! ## Going down from a location -/

theorem Text.joinWith_concat (separator last : Text) :
    ∀ {pieces : List Text},
      pieces ≠ [] →
        joinWith separator (pieces ++ [last]) = joinWith separator pieces ++ separator ++ last
  | [], nonempty => absurd rfl nonempty
  | [piece], _ => rfl
  | piece :: next :: pieces, _ => by
      have rest := joinWith_concat separator last (List.cons_ne_nil next pieces)
      simp only [List.cons_append, joinWith] at rest ⊢
      rw [rest]
      simp only [List.append_assoc]

namespace Location

/-- The location that some names lead to from a location on. -/
def descend (location : Location) (names : List Text) : Location :=
  ⟨location.names ++ names⟩

theorem foldl_follow_normal (start : Location) (names : List Text) :
    (names.map Component.normal).foldl follow start = start.descend names := by
  induction names generalizing start with
  | nil => simp [descend]
  | cons name names inductionHypothesis =>
      rw [List.map_cons, List.foldl_cons, inductionHypothesis]
      simp [descend, follow, child]

theorem names_path {location : Location} (plain : location.IsPlain) :
    location.path.names = location.names.map .normal := by
  have absolute : location.path.isAbsolute = true := rfl
  have spelled := components_path plain
  rw [Path.components_of_isAbsolute absolute] at spelled
  exact (List.cons.inj spelled).2

/-- The path of a location with a slash at its end. -/
def directoryText (location : Location) : Text :=
  if location.names = [] then ['/'] else location.path.text ++ ['/']

theorem path_child (location : Location) (name : Text) :
    (location.child name).path = ⟨location.directoryText ++ name⟩ := by
  unfold directoryText
  split
  next atRoot => simp [path, child, atRoot, Text.joinWith]
  next below => simp [path, child, Text.joinWith_concat _ name below]

theorem getLast?_directoryText (location : Location) :
    location.directoryText.getLast? = some '/' := by
  unfold directoryText
  split <;> simp

end Location

/-! ## Operations on the path of a location -/

namespace Path

/-- A text that ends with a name has nothing at its end that does not count. -/
theorem trimReversed_of_name
    {front name : Text}
    (start : Nat)
    (ends : front.getLast? = some '/')
    (noSlash : '/' ∉ name)
    (counts : Component.ofPiece? name = some (.normal name)) :
    trimReversed start (front ++ name).reverse = (front ++ name).reverse := by
  have notEmpty : name ≠ [] := by
    rintro rfl
    simp [Component.ofPiece?] at counts
  have notDot : name ≠ ['.'] := by
    rintro rfl
    simp [Component.ofPiece?] at counts
  obtain ⟨initial, last, rfl⟩ : ∃ initial last, name = initial ++ [last] :=
    ⟨_, _, (List.dropLast_concat_getLast notEmpty).symm⟩
  simp only [List.mem_append, List.mem_singleton, not_or] at noSlash
  rw [← List.append_assoc, List.reverse_append, List.reverse_singleton, List.singleton_append]
  unfold trimReversed
  split
  next heq => cases heq
  next rest heq => exact absurd (List.cons.inj heq).1.symm noSlash.2
  next heq =>
    have nothing := (List.cons.inj heq).2
    rw [List.reverse_eq_nil_iff, List.append_eq_nil_iff] at nothing
    rw [nothing.1] at ends
    cases ends
  next rest heq =>
    -- the character before a dot at the end belongs to the name
    obtain ⟨isDot, before⟩ := List.cons.inj heq
    have nonempty : initial ≠ [] := by
      rintro rfl
      exact notDot (by rw [isDot]; rfl)
    obtain ⟨more, previous, rfl⟩ : ∃ more previous, initial = more ++ [previous] :=
      ⟨_, _, (List.dropLast_concat_getLast nonempty).symm⟩
    rw [← List.append_assoc, List.reverse_append] at before
    have isSlash : previous = '/' := (List.cons.inj before).1
    exact absurd (by simp [isSlash]) noSlash.1
  next whole => exact whole.symm

/-- A path without its last name is the text before it, without what does not count at its end. -/
theorem parent?_append_name
    {front name : Text}
    (absolute : isAbsolute ⟨front⟩ = true)
    (ends : front.getLast? = some '/')
    (noSlash : '/' ∉ name)
    (counts : Component.ofPiece? name = some (.normal name)) :
    parent? ⟨front ++ name⟩ = some ⟨(trimReversed 1 front.reverse).reverse⟩ := by
  have nonempty : front ≠ [] := by
    rintro rfl
    cases ends
  have pathAbsolute : isAbsolute ⟨front ++ name⟩ = true := by
    rw [isAbsolute_append nonempty]
    exact absolute
  have lastComponent : (components ⟨front ++ name⟩).getLast? = some (.normal name) := by
    obtain ⟨initial, rfl⟩ := List.getLast?_eq_some_iff.mp ends
    have oneName : names ⟨name⟩ = [.normal name] := by
      rw [names, pieces, Text.splitAt_of_not_mem noSlash, List.filterMap_cons_some counts]
      rfl
    rw [components_of_isAbsolute pathAbsolute, List.append_assoc, List.singleton_append,
      names_append_slash, oneName, ← List.cons_append]
    exact List.getLast?_concat
  have beforeName : (trimmedReversed ⟨front ++ name⟩).drop name.length = front.reverse := by
    rw [trimmedReversed, trimReversed_of_name _ ends noSlash counts, List.reverse_append,
      ← List.length_reverse, List.drop_left]
  have startsOnce : min (startLength ⟨front ++ name⟩) front.reverse.length = 1 := by
    have short : startLength ⟨front ++ name⟩ = 1 := by
      rw [startLength, pathAbsolute]
      rfl
    have long : 0 < front.length := List.length_pos_iff.mpr nonempty
    rw [short, List.length_reverse]
    omega
  rw [parent?, lastComponent]
  dsimp only [Component.text]
  rw [beforeName, startsOnce]

end Path

namespace Location

variable {location : Location}

theorem trimmedReversed_path_child
    (location : Location)
    {name : Text}
    (noSlash : '/' ∉ name)
    (counts : Component.ofPiece? name = some (.normal name)) :
    (location.child name).path.trimmedReversed = (location.child name).path.text.reverse := by
  rw [Path.trimmedReversed, path_child]
  exact Path.trimReversed_of_name _ location.getLast?_directoryText noSlash counts

theorem eq_root_or_exists_child (location : Location) :
    location = root ∨ ∃ (above : Location) (name : Text), location = above.child name := by
  obtain ⟨names⟩ := location
  rcases List.eq_nil_or_concat' names with rfl | ⟨front, last, rfl⟩
  · exact Or.inl rfl
  · exact Or.inr ⟨⟨front⟩, last, rfl⟩

theorem isPlain_child_iff {name : Text} :
    (location.child name).IsPlain ↔
      location.IsPlain ∧ '/' ∉ name ∧ Component.ofPiece? name = some (.normal name) := by
  simp only [IsPlain, child, List.mem_append, List.mem_singleton]
  constructor
  · intro plain
    exact ⟨fun other member => plain other (Or.inl member), plain name (Or.inr rfl)⟩
  · rintro ⟨plain, named⟩ other (earlier | rfl)
    · exact plain other earlier
    · exact named

@[simp]
theorem parent_child (location : Location) (name : Text) :
    (location.child name).parent = location := by
  simp [parent, child]

theorem getLast?_components_path_child
    {name : Text}
    (plain : (location.child name).IsPlain) :
    (location.child name).path.components.getLast? = some (.normal name) := by
  rw [components_path plain, components, child, List.map_append, ← List.cons_append]
  exact List.getLast?_concat

theorem parent?_path_root : root.path.parent? = none := by
  decide

theorem parent?_path_child
    {name : Text}
    (plain : (location.child name).IsPlain) :
    (location.child name).path.parent? = some location.path := by
  obtain ⟨above, noSlash, counts⟩ := isPlain_child_iff.mp plain
  have absolute : Path.isAbsolute ⟨location.directoryText⟩ = true := by
    unfold directoryText
    split <;> rfl
  rw [path_child,
    Path.parent?_append_name absolute location.getLast?_directoryText noSlash counts]
  rcases eq_root_or_exists_child location with rfl | ⟨higher, last, rfl⟩
  · decide
  · obtain ⟨_, lastNoSlash, lastCounts⟩ := isPlain_child_iff.mp above
    have slashed :
        (higher.child last).directoryText.reverse =
          '/' :: (higher.child last).path.text.reverse := by
      simp [directoryText, child]
    have unchanged :
        Path.trimReversed 1 (higher.child last).path.text.reverse =
          (higher.child last).path.text.reverse := by
      rw [path_child]
      exact Path.trimReversed_of_name _ higher.getLast?_directoryText lastNoSlash lastCounts
    have long : ¬ (higher.child last).path.text.reverse.length < 1 := by
      simp [path]
    rw [slashed, Path.trimReversed, if_neg long, unchanged, List.reverse_reverse]

theorem join_path
    {name : Text}
    (plain : (location.child name).IsPlain) :
    location.path.join ⟨name⟩ = (location.child name).path := by
  obtain ⟨above, noSlash, counts⟩ := isPlain_child_iff.mp plain
  have relative := Path.isAbsolute_of_not_mem noSlash
  rw [path_child, Path.join, if_neg (by simp [relative])]
  rcases eq_root_or_exists_child location with rfl | ⟨higher, last, rfl⟩
  · rfl
  · obtain ⟨_, lastNoSlash, lastCounts⟩ := isPlain_child_iff.mp above
    have lastNonempty : last ≠ [] := by
      rintro rfl
      simp [Component.ofPiece?] at lastCounts
    have notEnded : ¬ ((higher.child last).path.text = [] ∨
        (higher.child last).path.text.getLast? = some '/') := by
      rintro (empty | ended)
      · cases empty
      · rw [path_child, List.getLast?_append_of_ne_nil _ lastNonempty] at ended
        exact lastNoSlash (List.mem_of_getLast? ended)
    rw [if_neg notEnded]
    simp [directoryText, child]

theorem withExtension_path_child
    {name extension : Text}
    (plain : (location.child name).IsPlain)
    (noDot : '.' ∉ name)
    (nonempty : extension ≠ []) :
    (location.child name).path.withExtension extension =
      (location.child (name ++ '.' :: extension)).path := by
  obtain ⟨_, noSlash, counts⟩ := isPlain_child_iff.mp plain
  have named : (location.child name).path.fileName? = some name := by
    rw [Path.fileName?, getLast?_components_path_child plain]
  have wholeName : (Path.splitExtension name).1 = name := by
    have after : (name.reverse.takeWhile (· ≠ '.')).reverse = name := by
      rw [List.takeWhile_eq_self_iff.mpr, List.reverse_reverse]
      intro character member
      rw [List.mem_reverse] at member
      rw [decide_eq_true_eq]
      rintro rfl
      exact noDot member
    unfold Path.splitExtension
    dsimp only
    rw [after, Nat.sub_self, Nat.zero_sub, List.take_zero, if_pos rfl]
  unfold Path.withExtension
  rw [named]
  dsimp only
  rw [wholeName, trimmedReversed_path_child location noSlash counts, if_neg nonempty,
    List.reverse_reverse, Nat.sub_self, Nat.sub_zero, List.take_length, path_child, path_child,
    List.append_assoc]

/-! ## Where locations lie -/

theorem normalize_path
    {tree : FileTree}
    (noLinks : tree.links = [])
    (plain : location.IsPlain) :
    tree.normalize location.path = location := by
  have absolute : location.path.isAbsolute = true := rfl
  rw [FileTree.normalize_eq_resolve noLinks, Path.anchoredAt, if_pos absolute,
    resolve_eq_foldl_names, if_pos absolute, names_path plain, foldl_follow_normal]
  rfl

theorem isWithin_path_iff
    {top : Location}
    (plain : location.IsPlain)
    (topPlain : top.IsPlain) :
    location.path.isWithin top.path = true ↔ top.names <+: location.names := by
  have injective : Function.Injective Component.normal := fun _ _ => Component.normal.inj
  rw [Path.isWithin, components_path plain, components_path topPlain, List.isPrefixOf_iff_prefix,
    components, components, List.cons_prefix_cons]
  simp [List.prefix_map_iff_of_injective injective]

/-- The location some levels up; the root is above itself. -/
def up (location : Location) (levels : Nat) : Location :=
  ⟨location.names.take (location.names.length - levels)⟩

theorem up_zero (location : Location) : location.up 0 = location := by
  rw [up, Nat.sub_zero, List.take_length]

theorem up_child (location : Location) (name : Text) (levels : Nat) :
    (location.child name).up (levels + 1) = location.up levels := by
  have length : (location.child name).names.length = location.names.length + 1 := by
    simp [child]
  rw [up, length, Nat.add_sub_add_right, child, up,
    List.take_append_of_le_length (Nat.sub_le _ _)]

end Location

namespace Resolver

/-- The directory some levels up from a location is that of its names without the last ones. -/
theorem ascend_path
    {levels : Nat}
    {location : Location}
    {base : Path}
    (plain : location.IsPlain)
    (ascends : ascend levels location.path = some base) :
    levels ≤ location.names.length ∧ base = (location.up levels).path ∧
      (location.up levels).IsPlain := by
  induction levels generalizing location with
  | zero =>
      have sameBase : location.path = base := Option.some.inj ascends
      simpa [Location.up, ← sameBase] using plain
  | succ levels inductionHypothesis =>
      rcases Location.eq_root_or_exists_child location with rfl | ⟨above, name, rfl⟩
      · rw [ascend, Location.parent?_path_root] at ascends
        cases ascends
      · rw [ascend, Location.parent?_path_child plain] at ascends
        obtain ⟨few, isBase, basePlain⟩ :=
          inductionHypothesis (Location.isPlain_child_iff.mp plain).1 ascends
        have length : (above.child name).names.length = above.names.length + 1 := by
          simp [Location.child]
        rw [Location.up_child]
        exact ⟨by omega, isBase, basePlain⟩

theorem ascend_path_eq_some
    {levels : Nat}
    {location : Location}
    (plain : location.IsPlain)
    (enough : levels ≤ location.names.length) :
    ascend levels location.path = some (location.up levels).path := by
  induction levels generalizing location with
  | zero => rw [ascend, Location.up_zero]
  | succ levels inductionHypothesis =>
      rcases Location.eq_root_or_exists_child location with rfl | ⟨above, name, rfl⟩
      · cases enough
      · have fewer : levels ≤ above.names.length := by
          simpa [Location.child] using enough
        rw [ascend, Location.parent?_path_child plain, Location.up_child]
        exact inductionHypothesis (Location.isPlain_child_iff.mp plain).1 fewer

end Resolver

end Inliner
