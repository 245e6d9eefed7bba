import Inliner.Config.Merge
import Inliner.Proofs.File.Ways
import Mathlib.Data.List.Basic

/-!
# Where paths lead

The location that a path leads to has a path of its own, and that path spells out the names on the
way to it and nothing else.  So two locations that paths lead to are the same if their paths have
the same components.  Where there are no links, a path with an extension leads to a file with this
extension, if it leads to a file at all.
-/

namespace Inliner

/-! ## Cutting a text -/

namespace Text

variable {separator : Char}

theorem splitAt_of_not_mem :
    ∀ {piece : Text}, separator ∉ piece → splitAt separator piece = [piece]
  | [], _ => rfl
  | first :: rest, absent => by
      rw [List.mem_cons, not_or] at absent
      rw [splitAt, if_neg (Ne.symm absent.1), splitAt_of_not_mem absent.2]

theorem splitAt_ne_nil : ∀ (text : Text), splitAt separator text ≠ []
  | [] => by simp [splitAt]
  | first :: rest => by
      unfold splitAt
      split
      · simp
      · split <;> simp

theorem splitAt_append_separator (front back : Text) :
    splitAt separator (front ++ separator :: back) =
      splitAt separator front ++ splitAt separator back := by
  induction front with
  | nil => simp [splitAt]
  | cons first rest inductionHypothesis =>
      rw [List.cons_append, splitAt, splitAt, inductionHypothesis]
      by_cases isSeparator : first = separator
      · simp [isSeparator]
      · rw [if_neg isSeparator, if_neg isSeparator]
        cases cut : splitAt separator rest with
        | nil => exact absurd cut (splitAt_ne_nil rest)
        | cons piece pieces => rfl

theorem not_mem_of_mem_splitAt :
    ∀ {text piece : Text}, piece ∈ splitAt separator text → separator ∉ piece
  | [], piece, member => by
      simp only [splitAt, List.mem_singleton] at member
      simp [member]
  | first :: rest, piece, member => by
      unfold splitAt at member
      split at member
      · rcases List.mem_cons.mp member with rfl | later
        · simp
        · exact not_mem_of_mem_splitAt later
      next notSeparator =>
        cases cut : splitAt separator rest with
        | nil => exact absurd cut (splitAt_ne_nil rest)
        | cons head tail =>
            have ofRest {other : Text} (inRest : other ∈ head :: tail) : separator ∉ other :=
              not_mem_of_mem_splitAt (cut ▸ inRest)
            rw [cut] at member
            rcases List.mem_cons.mp member with rfl | later
            · rw [List.mem_cons, not_or]
              exact ⟨Ne.symm notSeparator, ofRest List.mem_cons_self⟩
            · exact ofRest (List.mem_cons_of_mem head later)

theorem splitAt_joinWith :
    ∀ {pieces : List Text}, pieces ≠ [] → (∀ piece ∈ pieces, separator ∉ piece) →
      splitAt separator (joinWith [separator] pieces) = pieces
  | [], nonempty, _ => absurd rfl nonempty
  | [piece], _, absent => splitAt_of_not_mem (absent piece List.mem_cons_self)
  | piece :: next :: pieces, _, absent => by
      have unfolded :
          joinWith [separator] (piece :: next :: pieces) =
            piece ++ separator :: joinWith [separator] (next :: pieces) := by
        simp [joinWith]
      rw [unfolded, splitAt_append_separator,
        splitAt_of_not_mem (absent piece List.mem_cons_self),
        splitAt_joinWith (by simp) fun other member => absent other (List.mem_cons_of_mem _ member)]
      rfl

/-- The last piece of a text stands alone or behind a separator. -/
theorem not_mem_or_exists_last (separator : Char) (text : Text) :
    separator ∉ text ∨
      ∃ front piece, text = front ++ separator :: piece ∧ separator ∉ piece := by
  by_cases present : separator ∈ text
  · right
    obtain ⟨piece, front, reversed, absent⟩ :=
      List.eq_append_cons_of_mem (List.mem_reverse.mpr present)
    refine ⟨front.reverse, piece.reverse, ?_, by simpa using absent⟩
    rw [← List.reverse_reverse text, reversed]
    simp
  · exact Or.inl present

/-- The last piece of a text with more behind it, if that has no separator. -/
theorem getLast?_splitAt_append
    {text piece more : Text} (last : (splitAt separator text).getLast? = some piece)
    (absent : separator ∉ more) :
    (splitAt separator (text ++ more)).getLast? = some (piece ++ more) := by
  rcases not_mem_or_exists_last separator text with alone | ⟨front, final, rfl, notInFinal⟩
  · have notInBoth : separator ∉ text ++ more := by
      simp [alone, absent]
    rw [splitAt_of_not_mem alone] at last
    rw [splitAt_of_not_mem notInBoth]
    simpa using last
  · have notInBoth : separator ∉ final ++ more := by
      simp [notInFinal, absent]
    rw [splitAt_append_separator, splitAt_of_not_mem notInFinal, List.getLast?_append] at last
    rw [List.append_assoc, List.cons_append, splitAt_append_separator,
      splitAt_of_not_mem notInBoth, List.getLast?_append]
    simpa using last

end Text

/-! ## The last name of a path -/

namespace Component

theorem eq_of_ofPiece?_eq_normal
    {piece name : Text} (named : ofPiece? piece = some (.normal name)) :
    piece = name := by
  unfold ofPiece? at named
  split at named
  · simp at named
  · split at named
    · simp at named
    · simpa using named

end Component

namespace Path

/-- The components of a path that are not its start. -/
def names (path : Path) : List Component :=
  path.pieces.filterMap Component.ofPiece?

theorem fileName?_eq_some_iff {path : Path} {name : Text} :
    path.fileName? = some name ↔ path.names.getLast? = some (.normal name) := by
  have ofNames (start : Component) (notName : ∀ name, start ≠ .normal name) :
      (start :: path.names).getLast? = some (.normal name) ↔
        path.names.getLast? = some (.normal name) := by
    cases last : path.names.getLast? with
    | none =>
        rw [List.getLast?_eq_none_iff] at last
        simp [last, notName]
    | some component => simp [List.getLast?_cons, last]
  have sameLast :
      path.components.getLast? = some (.normal name) ↔
        path.names.getLast? = some (.normal name) := by
    unfold components
    split
    · exact ofNames .root (by simp)
    · split
      · exact ofNames .current (by simp)
      · rfl
  rw [← sameLast, fileName?]
  split <;> simp_all

theorem startLength_le_one (path : Path) : path.startLength ≤ 1 := by
  unfold startLength
  split <;> omega

/-- A slash or a dot behind a slash at the end of a text does not change its names. -/
theorem names_append_ignored
    {front piece : Text} (absent : '/' ∉ piece) (ignored : Component.ofPiece? piece = none) :
    names ⟨front ++ '/' :: piece⟩ = names ⟨front⟩ := by
  unfold names pieces
  rw [Text.splitAt_append_separator, Text.splitAt_of_not_mem absent, List.filterMap_append]
  simp [ignored]

/-- A last piece that counts is the last name. -/
theorem getLast?_names_of_ofPiece?
    {path : Path} {piece : Text} {component : Component}
    (last : path.pieces.getLast? = some piece)
    (counts : Component.ofPiece? piece = some component) :
    path.names.getLast? = some component := by
  obtain ⟨front, split⟩ := List.getLast?_eq_some_iff.mp last
  rw [names, split, List.filterMap_append]
  simp [counts]

/-- The last name of a path is its last piece, if that counts. -/
theorem eq_of_getLast?_pieces
    {path : Path} {piece name : Text} (isLast : path.pieces.getLast? = some piece)
    (notEmpty : piece ≠ []) (notCurrent : piece ≠ ['.'])
    (last : path.names.getLast? = some (.normal name)) :
    piece = name := by
  have counts : ∃ component, Component.ofPiece? piece = some component := by
    unfold Component.ofPiece?
    rw [if_neg (by simp [notEmpty, notCurrent])]
    split <;> exact ⟨_, rfl⟩
  obtain ⟨component, named⟩ := counts
  rw [getLast?_names_of_ofPiece? isLast named] at last
  exact Component.eq_of_ofPiece?_eq_normal (named.trans last)

/-- What is left of a text, reversed, starts with its last name. -/
theorem trimReversed_of_getLast?_names
    {start : Nat} {name : Text} (short : start ≤ 1) (text : Text)
    (last : (names ⟨text.reverse⟩).getLast? = some (.normal name)) :
    ∃ rest, trimReversed start text = name.reverse ++ rest ∧
      (rest = [] ∨ rest.head? = some '/') := by
  fun_induction trimReversed start text with
  | case1 => simp [names, pieces, Text.splitAt, Component.ofPiece?] at last
  | case2 rest few =>
      have empty : rest = [] := List.length_eq_zero_iff.mp (by omega)
      subst empty
      simp [names, pieces, Text.splitAt, Component.ofPiece?] at last
  | case3 rest _ inductionHypothesis =>
      apply inductionHypothesis
      rw [List.reverse_cons, names_append_ignored (by simp) (by simp [Component.ofPiece?])] at last
      exact last
  | case4 => simp [names, pieces, Text.splitAt, Component.ofPiece?] at last
  | case5 => simp [names, pieces, Text.splitAt, Component.ofPiece?] at last
  | case6 rest few => omega
  | case7 rest _ inductionHypothesis =>
      apply inductionHypothesis
      rw [List.reverse_cons, List.reverse_cons, List.append_assoc, List.singleton_append,
        names_append_ignored (by simp) (by simp [Component.ofPiece?])] at last
      rw [List.reverse_cons, names_append_ignored (by simp) (by simp [Component.ofPiece?])]
      exact last
  | case8 character rest notSlash notDot notDotSlash =>
      -- the text ends with a piece that counts, so nothing is dropped
      rcases Text.not_mem_or_exists_last '/' (character :: rest).reverse with
        alone | ⟨front, piece, split, absent⟩
      · have same : (character :: rest).reverse = name := by
          refine eq_of_getLast?_pieces ?_ ?_ ?_ last
          · rw [pieces, Text.splitAt_of_not_mem alone]
            rfl
          · simp
          · intro single
            obtain ⟨isDot, none⟩ := List.cons.inj (List.reverse_eq_iff.mp single)
            exact notDot isDot none
        exact ⟨[], by rw [← same]; simp, Or.inl rfl⟩
      · have whole : character :: rest = piece.reverse ++ '/' :: front.reverse := by
          rw [← List.reverse_reverse (character :: rest), split]
          simp
        have same : piece = name := by
          refine eq_of_getLast?_pieces ?_ ?_ ?_ last
          · rw [pieces, split, Text.splitAt_append_separator, Text.splitAt_of_not_mem absent]
            simp
          · rintro rfl
            exact notSlash (List.cons.inj whole).1
          · rintro rfl
            obtain ⟨isDot, after⟩ := List.cons.inj whole
            exact notDotSlash _ isDot after
        exact ⟨'/' :: front.reverse, by rw [whole, same], Or.inr rfl⟩

theorem trimmedReversed_of_fileName?
    {path : Path} {name : Text} (named : path.fileName? = some name) :
    ∃ front, path.trimmedReversed.reverse = front ++ name ∧
      (front = [] ∨ front.getLast? = some '/') := by
  have last : (names ⟨path.text.reverse.reverse⟩).getLast? = some (.normal name) := by
    rw [List.reverse_reverse]
    exact fileName?_eq_some_iff.mp named
  obtain ⟨rest, trimmed, behind⟩ :=
    trimReversed_of_getLast?_names path.startLength_le_one path.text.reverse last
  refine ⟨rest.reverse, ?_, ?_⟩
  · rw [trimmedReversed, trimmed]
    simp
  · rcases behind with rfl | slash
    · exact Or.inl rfl
    · right
      rw [List.getLast?_reverse]
      exact slash

/-- A name that does not end at its first character is cut into a stem and an extension. -/
theorem splitExtension_append
    {stem extension : Text} (nonempty : stem ≠ []) (noDot : '.' ∉ extension) :
    splitExtension (stem ++ '.' :: extension) = (stem, some extension) := by
  have after :
      ((stem ++ '.' :: extension).reverse.takeWhile (· ≠ '.')).reverse = extension := by
    have reversed :
        (stem ++ '.' :: extension).reverse = extension.reverse ++ '.' :: stem.reverse := by
      simp
    rw [reversed, List.takeWhile_append_of_pos]
    · simp
    · intro character member
      rw [List.mem_reverse] at member
      rw [decide_eq_true_eq]
      rintro rfl
      exact noDot member
  have before :
      (stem ++ '.' :: extension).take
        ((stem ++ '.' :: extension).length - extension.length - 1) = stem := by
    have length : (stem ++ '.' :: extension).length - extension.length - 1 = stem.length := by
      simp only [List.length_append, List.length_cons]
      omega
    rw [length, List.take_left]
  unfold splitExtension
  dsimp only
  rw [after, before, if_neg nonempty]

theorem splitExtension_stem
    {name : Text} (nonempty : name ≠ []) :
    (splitExtension name).1 ≠ [] ∧ (splitExtension name).1 <+: name := by
  unfold splitExtension
  dsimp only
  split
  next => exact ⟨nonempty, List.prefix_rfl⟩
  next visible => exact ⟨visible, List.take_prefix _ _⟩

/-- What is left if as much is taken off the end as a name has more than its stem. -/
theorem take_append_stem
    {front name stem : Text} (stemPrefix : stem <+: name) :
    (front ++ name).take ((front ++ name).length - (name.length - stem.length)) =
      front ++ stem := by
  obtain ⟨rest, rfl⟩ := stemPrefix
  have count :
      (front ++ (stem ++ rest)).length - ((stem ++ rest).length - stem.length) =
        (front ++ stem).length := by
    simp only [List.length_append]
    omega
  rw [count, ← List.append_assoc, List.take_left]

/-- The last name of a path with a new extension is a stem with this extension. -/
theorem getLast?_pieces_withExtension
    {path : Path} {name extension : Text} (named : path.fileName? = some name)
    (nonempty : extension ≠ []) (noSlash : '/' ∉ extension) :
    ∃ stem, stem ≠ [] ∧
      (path.withExtension extension).pieces.getLast? = some (stem ++ '.' :: extension) := by
  have isPiece : name ∈ path.pieces ∧ Component.ofPiece? name = some (.normal name) := by
    have member := List.mem_of_getLast? (fileName?_eq_some_iff.mp named)
    obtain ⟨piece, inPieces, counts⟩ := List.mem_filterMap.mp member
    obtain rfl := Component.eq_of_ofPiece?_eq_normal counts
    exact ⟨inPieces, counts⟩
  have nameNonempty : name ≠ [] := by
    rintro rfl
    simp [Component.ofPiece?] at isPiece
  obtain ⟨stemNonempty, stemPrefix⟩ := splitExtension_stem nameNonempty
  refine ⟨(splitExtension name).1, stemNonempty, ?_⟩
  obtain ⟨front, trimmed, behind⟩ := trimmedReversed_of_fileName? named
  have stemPiece :
      (Text.splitAt '/' (front ++ (splitExtension name).1)).getLast? =
        some (splitExtension name).1 := by
    have absent : '/' ∉ (splitExtension name).1 := fun member =>
      Text.not_mem_of_mem_splitAt isPiece.1 (stemPrefix.subset member)
    rcases behind with rfl | slash
    · rw [List.nil_append, Text.splitAt_of_not_mem absent]
      rfl
    · obtain ⟨initial, rfl⟩ := List.getLast?_eq_some_iff.mp slash
      rw [List.append_assoc, List.singleton_append, Text.splitAt_append_separator,
        Text.splitAt_of_not_mem absent]
      simp
  unfold withExtension
  rw [named]
  dsimp only
  rw [if_neg nonempty, trimmed, take_append_stem stemPrefix, pieces]
  exact Text.getLast?_splitAt_append stemPiece (by simp [noSlash])

end Path

/-! ## Locations with plain names -/

namespace Location

/-- Every name on the way to a location stands for itself between two slashes. -/
def IsPlain (location : Location) : Prop :=
  ∀ name ∈ location.names, '/' ∉ name ∧ Component.ofPiece? name = some (.normal name)

theorem isPlain_root : root.IsPlain := by
  simp [IsPlain, root]

theorem IsPlain.parent {location : Location} (plain : location.IsPlain) :
    location.parent.IsPlain := by
  intro name member
  exact plain name (List.dropLast_subset location.names member)

theorem IsPlain.child
    {location : Location} {name : Text} (plain : location.IsPlain)
    (absent : '/' ∉ name) (counts : Component.ofPiece? name = some (.normal name)) :
    (location.child name).IsPlain := by
  intro other member
  rcases List.mem_append.mp member with earlier | last
  · exact plain other earlier
  · rw [List.mem_singleton.mp last]
    exact ⟨absent, counts⟩

/-- The path of a location with plain names spells them out. -/
theorem components_path {location : Location} (plain : location.IsPlain) :
    location.path.components = location.components := by
  have onlyNames :
      (Text.splitAt '/' (Text.joinWith ['/'] location.names)).filterMap Component.ofPiece? =
        location.names.map .normal := by
    by_cases empty : location.names = []
    · rw [empty]
      rfl
    · rw [Text.splitAt_joinWith empty fun name member => (plain name member).1]
      rw [List.filterMap_eq_map_iff_forall_eq_some]
      intro name member
      exact (plain name member).2
  have absolute : location.path.isAbsolute = true := rfl
  have cut :
      location.path.pieces = [] :: Text.splitAt '/' (Text.joinWith ['/'] location.names) := by
    rw [Path.pieces, path, Text.splitAt, if_pos rfl]
  unfold Path.components
  rw [absolute, cut, List.filterMap_cons, onlyNames]
  rfl

/-- Locations with plain names are told apart by their paths. -/
theorem eq_of_components_path_eq
    {first second : Location} (firstPlain : first.IsPlain) (secondPlain : second.IsPlain)
    (same : first.path.components = second.path.components) :
    first = second := by
  rw [components_path firstPlain, components_path secondPlain] at same
  have sameNames : first.names.map Component.normal = second.names.map Component.normal :=
    (List.cons.inj same).2
  have injective : Function.Injective Component.normal := fun _ _ equal =>
    Component.normal.inj equal
  cases first
  cases second
  rw [mk.injEq]
  exact List.map_injective_iff.mpr injective sameNames

/-- Following a path from a location with plain names leads to one. -/
theorem isPlain_resolve {start : Location} (plain : start.IsPlain) (path : Path) :
    (resolve start path).IsPlain := by
  have known :
      ∀ name, Component.normal name ∈ path.components →
        '/' ∉ name ∧ Component.ofPiece? name = some (.normal name) := by
    intro name member
    have inNames : Component.normal name ∈ path.names := by
      unfold Path.components at member
      split at member
      · exact (List.mem_cons.mp member).resolve_left (by simp)
      · split at member
        · exact (List.mem_cons.mp member).resolve_left (by simp)
        · exact member
    obtain ⟨piece, inPieces, counts⟩ := List.mem_filterMap.mp inNames
    obtain rfl := Component.eq_of_ofPiece?_eq_normal counts
    exact ⟨Text.not_mem_of_mem_splitAt inPieces, counts⟩
  unfold resolve
  revert known plain
  induction path.components generalizing start with
  | nil =>
      intro plain _
      exact plain
  | cons component components inductionHypothesis =>
      intro plain known
      rw [List.foldl_cons]
      apply inductionHypothesis
      · cases component with
        | root => exact isPlain_root
        | current => exact plain
        | parent => exact plain.parent
        | normal name =>
            obtain ⟨absent, counts⟩ := known name List.mem_cons_self
            exact plain.child absent counts
      · intro name member
        exact known name (List.mem_cons_of_mem component member)

end Location

/-! ## Following a path -/

namespace FileTree

variable {tree : FileTree}

theorem isPlain_start (tree : FileTree) (path : Path) : (tree.start path).IsPlain := by
  unfold start
  split
  · exact Location.isPlain_root
  · exact Location.isPlain_resolve Location.isPlain_root _

theorem ofPiece_eq_down {piece name : Text} (down : Step.ofPiece piece = .down name) :
    piece = name ∧ Component.ofPiece? piece = some (.normal piece) := by
  unfold Step.ofPiece at down
  unfold Component.ofPiece?
  split at down
  · cases down
  next notEmpty =>
    split at down
    · cases down
    next notDot =>
      split at down
      · cases down
      next notParent =>
        rw [if_neg (not_or.mpr ⟨notEmpty, notDot⟩), if_neg notParent]
        exact ⟨Step.down.inj down, rfl⟩

theorem ofPiece_eq_down_of_counts
    {name : Text} (counts : Component.ofPiece? name = some (.normal name)) :
    Step.ofPiece name = .down name := by
  unfold Component.ofPiece? at counts
  split at counts
  · cases counts
  next notIgnored =>
    obtain ⟨notEmpty, notDot⟩ := not_or.mp notIgnored
    split at counts
    · cases counts
    next notParent => rw [Step.ofPiece, if_neg notEmpty, if_neg notDot, if_neg notParent]

/-- A name that is gone down to stands for itself between two slashes. -/
def Step.IsPlain : Step → Prop
  | .down name => '/' ∉ name ∧ Component.ofPiece? name = some (.normal name)
  | .slash | .stay | .up => True

theorem isPlain_of_mem_steps {path : Path} {step : Step} (member : step ∈ steps path) :
    step.IsPlain := by
  obtain ⟨piece, inPieces, isStep⟩ := List.mem_map.mp member
  cases step with
  | slash | stay | up => trivial
  | down name =>
      obtain ⟨rfl, counts⟩ := ofPiece_eq_down isStep
      exact ⟨Text.not_mem_of_mem_splitAt inPieces, counts⟩

theorem Leads.isPlain
    {left more : Nat} {start final : Location} {steps : List Step}
    (leads : tree.Leads left start steps final more) (plain : start.IsPlain)
    (stepsPlain : ∀ step ∈ steps, step.IsPlain) :
    final.IsPlain := by
  induction leads with
  | arrived => exact plain
  | idle _ _ _ inductionHypothesis =>
      exact inductionHypothesis plain (List.forall_mem_cons.mp stepsPlain).2
  | up _ _ inductionHypothesis =>
      exact inductionHypothesis plain.parent (List.forall_mem_cons.mp stepsPlain).2
  | down _ _ _ inductionHypothesis =>
      obtain ⟨namePlain, restPlain⟩ := List.forall_mem_cons.mp stepsPlain
      exact inductionHypothesis (plain.child namePlain.1 namePlain.2) restPlain
  | @link _ _ start _ _ target _ _ _ _ _ inductionHypothesis =>
      have startPlain : (linkStart start target).IsPlain := by
        unfold linkStart
        split
        · exact Location.isPlain_root
        · exact plain
      refine inductionHypothesis startPlain fun step member => ?_
      rcases List.mem_append.mp member with inTarget | inRest
      · exact isPlain_of_mem_steps inTarget
      · exact (List.forall_mem_cons.mp stepsPlain).2 step inRest

/-- The location of a path has plain names. -/
theorem isPlain_normalize (tree : FileTree) (path : Path) : (tree.normalize path).IsPlain := by
  unfold normalize
  split
  next location located =>
    obtain ⟨more, leads⟩ := leads_of_locate located
    exact leads.isPlain (tree.isPlain_start path) fun step => isPlain_of_mem_steps
  next => exact Location.isPlain_resolve Location.isPlain_root _

/-! ## Files at the end of a path -/

/-- Where there is a directory, there are the directories above it. -/
theorem hasDirectory_above
    {location other : Location}
    (directory : tree.hasDirectory location = true)
    (isPrefix : other.names <+: location.names) :
    tree.hasDirectory other = true := by
  unfold hasDirectory at directory ⊢
  rw [Bool.or_eq_true] at directory ⊢
  rcases directory with isRoot | below
  · left
    rw [eq_of_beq isRoot] at isPrefix
    cases other
    exact beq_iff_eq.mpr (congrArg Location.mk (List.prefix_nil.mp isPrefix))
  · right
    rw [List.any_eq_true] at below ⊢
    obtain ⟨deeper, member, inDeeper⟩ := below
    rw [List.isPrefixOf_iff_prefix] at inDeeper
    exact ⟨deeper, member, List.isPrefixOf_iff_prefix.mpr (isPrefix.trans inDeeper)⟩

/-- Something is at the location, and it is in a directory. -/
def Holds (tree : FileTree) (location : Location) : Prop :=
  tree.hasDirectory location.parent = true ∧ tree.hasEntry location = true

theorem holds_of_hasDirectory
    {location : Location} (directory : tree.hasDirectory location = true) :
    tree.Holds location := by
  refine ⟨hasDirectory_above directory (List.dropLast_prefix location.names), ?_⟩
  simp [hasEntry, directory]

theorem holds_root (tree : FileTree) : tree.Holds .root :=
  holds_of_hasDirectory rfl

theorem Leads.holds
    {left more : Nat} {start final : Location} {steps : List Step}
    (leads : tree.Leads left start steps final more) (found : tree.Holds start) :
    tree.Holds final := by
  induction leads with
  | arrived => exact found
  | idle _ _ _ inductionHypothesis => exact inductionHypothesis found
  | @up _ _ start _ _ directory _ inductionHypothesis =>
      exact inductionHypothesis
        (holds_of_hasDirectory (hasDirectory_above directory (List.dropLast_prefix start.names)))
  | down directory entry _ inductionHypothesis =>
      exact inductionHypothesis ⟨by simpa [Location.parent, Location.child] using directory, entry⟩
  | link directory _ _ _ inductionHypothesis =>
      apply inductionHypothesis
      unfold linkStart
      split
      · exact tree.holds_root
      · exact holds_of_hasDirectory directory

/-- Without links the last step to a file goes down to its name. -/
theorem exists_child_of_leads
    {left more : Nat} {start final : Location} {steps : List Step} {last : Step}
    (noLinks : tree.links = [])
    (leads : tree.Leads left start (steps ++ [last]) final more)
    (found : (tree.content? final).isSome = true) :
    ∃ above : Location, ∃ name, last = .down name ∧ final = above.child name := by
  have notDirectory := hasDirectory_eq_false_of_content? found
  obtain ⟨reached, fewer, _, lastLeads⟩ := leads.exists_of_append
  cases lastLeads with
  | idle directory _ onward =>
      cases onward
      rw [notDirectory] at directory
      cases directory
  | up directory onward =>
      cases onward
      have above := hasDirectory_above directory (List.dropLast_prefix reached.names)
      rw [Location.parent, above] at notDirectory
      cases notDirectory
  | @down _ _ _ _ name _ _ _ onward =>
      cases onward
      exact ⟨reached, name, rfl, rfl⟩
  | link _ _ isLink _ =>
      rw [noLinks] at isLink
      cases isLink

/-- Without links the last piece of a path that leads to a file is the name of the file. -/
theorem exists_child_of_isFile
    {path : Path} (noLinks : tree.links = []) (isFile : tree.isFile path = true) :
    ∃ above : Location, ∃ name,
      tree.normalize path = above.child name ∧
      path.pieces.getLast? = some name ∧
      Component.ofPiece? name = some (.normal name) := by
  obtain ⟨location, located, present⟩ := exists_locate_of_isFile isFile
  have leads : tree.normalize path = location := by
    rw [normalize, located]
  rw [leads]
  obtain ⟨more, way⟩ := leads_of_locate located
  obtain ⟨front, piece, split⟩ :
      ∃ front piece, path.pieces = front ++ [piece] :=
    ⟨_, _, (List.dropLast_concat_getLast (Text.splitAt_ne_nil path.text)).symm⟩
  rw [steps, split, List.map_append] at way
  obtain ⟨above, name, down, child⟩ := exists_child_of_leads noLinks way present
  obtain ⟨rfl, counts⟩ := ofPiece_eq_down down
  refine ⟨above, piece, child, ?_, counts⟩
  rw [split]
  simp

/-- Without links a path with an extension leads to files with this extension only. -/
theorem extension?_normalize
    {path : Path} {extension : Text} (noLinks : tree.links = [])
    (isFile : tree.isFile (path.withExtension extension) = true)
    (nonempty : extension ≠ []) (noSlash : '/' ∉ extension) (noDot : '.' ∉ extension) :
    (tree.normalize (path.withExtension extension)).path.extension? = some extension := by
  obtain ⟨above, name, child, last, counts⟩ := exists_child_of_isFile noLinks isFile
  have fileName : (tree.normalize (path.withExtension extension)).path.fileName? = some name := by
    have lastComponent : (above.child name).components.getLast? = some (.normal name) := by
      rw [Location.components, Location.child, List.map_append, ← List.cons_append]
      exact List.getLast?_concat
    unfold Path.fileName?
    rw [Location.components_path (tree.isPlain_normalize _), child, lastComponent]
  have isStem : ∃ stem, stem ≠ [] ∧ name = stem ++ '.' :: extension := by
    cases named : path.fileName? with
    | none =>
        have unchanged : path.withExtension extension = path := by
          unfold Path.withExtension
          rw [named]
        rw [unchanged] at last
        have isName := Path.fileName?_eq_some_iff.mpr (Path.getLast?_names_of_ofPiece? last counts)
        rw [named] at isName
        simp at isName
    | some old =>
        obtain ⟨stem, stemNonempty, lastPiece⟩ :=
          Path.getLast?_pieces_withExtension named nonempty noSlash
        rw [last] at lastPiece
        exact ⟨stem, stemNonempty, Option.some.inj lastPiece⟩
  obtain ⟨stem, stemNonempty, rfl⟩ := isStem
  unfold Path.extension?
  rw [fileName, Option.bind_some, Path.splitExtension_append stemNonempty noDot]

end FileTree

end Inliner
