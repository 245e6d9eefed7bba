import Inliner.Proofs.File.Identity
import Inliner.Proofs.Merge.Edits
import Inliner.Proofs.Walk.Consistency
import Mathlib.Data.List.Count
import Mathlib.Data.List.Induction

/-!
# Numbers given to paths

A registry is used by calls in any order: files are registered, looked up, given their modules and
marked as resolved.  The paths registered, without the repetitions, tell all numbers: a path is
found under the place at which its components stand there.  Nothing that is called later takes a
number back, gives it to another path, or makes a resolved file unresolved again.
-/

namespace Inliner

/-! ## Spellings with the same components -/

namespace Path

theorem isAbsolute_append_slash (front back other : Text) :
    isAbsolute ⟨front ++ '/' :: back⟩ = isAbsolute ⟨front ++ '/' :: other⟩ := by
  cases front with
  | nil => rfl
  | cons first rest => rfl

theorem head?_pieces_append_slash (front back : Text) :
    (pieces ⟨front ++ '/' :: back⟩).head? = (pieces ⟨front⟩).head? := by
  rw [pieces, Text.splitAt_append_separator,
    List.head?_append_of_ne_nil _ (Text.splitAt_ne_nil front)]
  rfl

/-- What stands behind a slash counts with its names only. -/
theorem components_append_slash
    {back other : Text} (front : Text) (sameNames : names ⟨back⟩ = names ⟨other⟩) :
    components ⟨front ++ '/' :: back⟩ = components ⟨front ++ '/' :: other⟩ := by
  have same : names ⟨front ++ '/' :: back⟩ = names ⟨front ++ '/' :: other⟩ := by
    rw [names_append_slash, names_append_slash, sameNames]
  unfold names at same
  simp only [components, same, isAbsolute_append_slash front back other,
    head?_pieces_append_slash]

theorem components_append_dot (front back : Text) :
    components ⟨front ++ '/' :: '.' :: '/' :: back⟩ = components ⟨front ++ '/' :: back⟩ :=
  components_append_slash front (names_append_slash ['.'] back)

theorem components_append_slashes (front back : Text) :
    components ⟨front ++ '/' :: '/' :: back⟩ = components ⟨front ++ '/' :: back⟩ :=
  components_append_slash front (names_append_slash [] back)

theorem components_concat_slash {text : Text} (nonempty : text ≠ []) :
    components ⟨text ++ ['/']⟩ = components ⟨text⟩ := by
  have sameStart := isAbsolute_append nonempty ['/']
  have same : names ⟨text ++ ['/']⟩ = names ⟨text⟩ :=
    names_append_ignored (by simp) (by simp [Component.ofPiece?])
  unfold names at same
  simp only [components, same, sameStart, head?_pieces_append_slash text []]

/-- Two dots are never taken together with what stands before them. -/
theorem count_parent_components (path : Path) :
    path.components.count .parent = path.pieces.count ['.', '.'] := by
  have ofNames : path.names.count .parent = path.pieces.count ['.', '.'] := by
    unfold names
    induction path.pieces with
    | nil => rfl
    | cons piece pieces inductionHypothesis =>
        by_cases ignored : piece = [] ∨ piece = ['.']
        · have noName : Component.ofPiece? piece = none := if_pos ignored
          rw [List.filterMap_cons_none noName, inductionHypothesis, List.count_cons_of_ne]
          rcases ignored with rfl | rfl <;> simp
        · by_cases isUp : piece = ['.', '.']
          · subst isUp
            have isParent : Component.ofPiece? ['.', '.'] = some .parent := rfl
            rw [List.filterMap_cons_some isParent, List.count_cons_self, List.count_cons_self,
              inductionHypothesis]
          · have isName : Component.ofPiece? piece = some (.normal piece) := by
              rw [Component.ofPiece?, if_neg ignored, if_neg isUp]
            rw [List.filterMap_cons_some isName, List.count_cons_of_ne (by simp),
              List.count_cons_of_ne isUp, inductionHypothesis]
  rw [← ofNames]
  unfold components
  split
  · exact List.count_cons_of_ne (by simp)
  · split
    · exact List.count_cons_of_ne (by simp)
    · rfl

end Path

namespace Registry

/-! ## Calls on a registry -/

/-- A call on a registry. -/
inductive Call where
  | register (path : Path)
  | lookup (path : Path)
  | attach (module : Module)
  | markResolved (id : Nat)

namespace Call

/-- The registry after a call. -/
def apply (registry : Registry) : Call → Registry
  | .register path => (registry.register path).1
  | .lookup _ => registry
  | .attach module => registry.attach module
  | .markResolved id => registry.markResolved id

/-- The path that a call registers. -/
def path? : Call → Option Path
  | .register path => some path
  | .lookup _ | .attach _ | .markResolved _ => none

end Call

/-- The registry after calls one after the other. -/
def after (registry : Registry) (calls : List Call) : Registry :=
  calls.foldl Call.apply registry

/-- The numbers given to paths as they are registered, in order. -/
def issued : Registry → List Call → List Nat
  | _, [] => []
  | registry, call :: calls =>
      (call.path?.map fun path => (registry.register path).2).toList ++
        issued (call.apply registry) calls

/-- The paths registered by calls, in order. -/
def registered (calls : List Call) : List Path :=
  calls.filterMap Call.path?

/-- The components of the paths registered, in the order in which each was registered first. -/
def firstKeys (calls : List Call) : List (List Component) :=
  ((registered calls).map Path.components).eraseDups

variable {registry : Registry} {calls : List Call} {call : Call} {path : Path} {id : Nat}

theorem after_append (registry : Registry) (calls more : List Call) :
    registry.after (calls ++ more) = (registry.after calls).after more :=
  List.foldl_append

theorem issued_append (registry : Registry) (calls more : List Call) :
    registry.issued (calls ++ more) =
      registry.issued calls ++ (registry.after calls).issued more := by
  induction calls generalizing registry with
  | nil => rfl
  | cons call calls inductionHypothesis =>
      simp only [List.cons_append, issued, inductionHypothesis, List.append_assoc]
      rfl

theorem mem_firstKeys_iff {key : List Component} :
    key ∈ firstKeys calls ↔ ∃ path ∈ registered calls, path.components = key := by
  rw [firstKeys, List.mem_eraseDups, List.mem_map]

/-! ## What a call changes -/

theorem keys_register (registry : Registry) (path : Path) :
    (registry.register path).1.keys =
      if path.components ∈ registry.keys then registry.keys
      else registry.keys ++ [path.components] := by
  cases found : registry.lookup path with
  | none =>
      rw [register_of_lookup_eq_none found, if_neg (lookup_eq_none_iff.mp found)]
      exact keys_add registry path
  | some id =>
      have known := List.mem_of_getElem? (getElem?_keys_of_lookup found)
      rw [register, found, if_pos known]

theorem keys_apply_of_path?_eq_none (quiet : call.path? = none) :
    (call.apply registry).keys = registry.keys := by
  cases call with
  | register path => cases quiet
  | lookup path => rfl
  | attach module => exact keys_attach registry module
  | markResolved id => exact keys_markResolved registry id

theorem isPrefix_keys_apply (registry : Registry) (call : Call) :
    registry.keys <+: (call.apply registry).keys := by
  cases call with
  | register path =>
      rw [Call.apply, keys_register]
      split
      · exact List.prefix_rfl
      · exact List.prefix_append _ _
  | lookup | attach | markResolved =>
      exact ⟨[], (List.append_nil _).trans (keys_apply_of_path?_eq_none rfl).symm⟩

/-- A resolved file stays resolved. -/
theorem resolved_apply (call : Call) (resolved : registry.state? id = some .resolved) :
    (call.apply registry).state? id = some .resolved := by
  cases call with
  | register path =>
      cases found : registry.lookup path with
      | none => exact state?_register found resolved
      | some other =>
          rw [Call.apply, register, found]
          exact resolved
  | lookup path => exact resolved
  | attach module => exact resolved
  | markResolved other =>
      rw [Call.apply, state?_markResolved, resolved]
      split <;> rfl

/-! ## What calls one after the other change -/

theorem isPrefix_keys_after (registry : Registry) (calls : List Call) :
    registry.keys <+: (registry.after calls).keys := by
  induction calls generalizing registry with
  | nil => exact List.prefix_rfl
  | cons call calls inductionHypothesis =>
      exact (isPrefix_keys_apply registry call).trans (inductionHypothesis (call.apply registry))

/-- A number that was given is not taken back. -/
theorem lookup_after (calls : List Call) (found : registry.lookup path = some id) :
    (registry.after calls).lookup path = some id := by
  obtain ⟨later, split⟩ := isPrefix_keys_after registry calls
  rw [lookup_eq_numberOf?, numberOf?] at found ⊢
  rw [← split, List.findIdx?_append, found, Option.some_or]

theorem resolved_after (calls : List Call) (resolved : registry.state? id = some .resolved) :
    (registry.after calls).state? id = some .resolved := by
  induction calls generalizing registry with
  | nil => exact resolved
  | cons call calls inductionHypothesis => exact inductionHypothesis (resolved_apply call resolved)

theorem firstKeys_concat_register (calls : List Call) (path : Path) :
    firstKeys (calls ++ [.register path]) =
      if path.components ∈ firstKeys calls then firstKeys calls
      else firstKeys calls ++ [path.components] := by
  have oneMore : registered (calls ++ [.register path]) = registered calls ++ [path] :=
    List.filterMap_append
  simp only [firstKeys, oneMore, List.map_append, List.map_singleton, eraseDups_concat,
    List.mem_eraseDups]

theorem firstKeys_concat_of_path?_eq_none (calls : List Call) (quiet : call.path? = none) :
    firstKeys (calls ++ [call]) = firstKeys calls := by
  have noMore : registered (calls ++ [call]) = registered calls := by
    rw [registered, List.filterMap_append, List.filterMap_cons_none quiet]
    exact List.append_nil _
  rw [firstKeys, noMore, firstKeys]

theorem keys_after_empty (root : Path) (calls : List Call) :
    ((empty root).after calls).keys = firstKeys calls := by
  induction calls using List.reverseRecOn with
  | nil => rfl
  | append_singleton calls call inductionHypothesis =>
      rw [after_append]
      change (call.apply ((empty root).after calls)).keys = _
      cases call with
      | register path =>
          rw [Call.apply, keys_register, inductionHypothesis, firstKeys_concat_register]
      | lookup | attach | markResolved =>
          rw [keys_apply_of_path?_eq_none rfl, inductionHypothesis,
            firstKeys_concat_of_path?_eq_none calls rfl]

theorem lookup_after_empty (root : Path) (calls : List Call) (path : Path) (id : Nat) :
    ((empty root).after calls).lookup path = some id ↔
      (firstKeys calls)[id]? = some path.components := by
  have distinct : ((empty root).after calls).keys.Nodup := by
    rw [keys_after_empty]
    exact nodup_eraseDups _
  rw [← keys_after_empty root, lookup_eq_numberOf?]
  exact ⟨getElem?_keys_of_numberOf?, numberOf?_of_getElem?_keys distinct⟩

/-- The numbers given are those from zero on, each for the first time in this order. -/
theorem eraseDups_issued (root : Path) (calls : List Call) :
    ((empty root).issued calls).eraseDups = List.range (firstKeys calls).length := by
  induction calls using List.reverseRecOn with
  | nil => rfl
  | append_singleton calls call inductionHypothesis =>
      have mem_issued : ∀ number,
          number ∈ (empty root).issued calls ↔ number < (firstKeys calls).length := by
        intro number
        rw [← List.mem_eraseDups, inductionHypothesis, List.mem_range]
      rw [issued_append]
      cases call with
      | register path =>
          change (_ ++ [(((empty root).after calls).register path).2]).eraseDups = _
          simp only [eraseDups_concat, mem_issued, inductionHypothesis, firstKeys_concat_register]
          cases found : ((empty root).after calls).lookup path with
          | none =>
              -- A new path is the next one, so its number is the number of paths before it.
              have number : (((empty root).after calls).register path).2 =
                  (firstKeys calls).length := by
                rw [register_of_lookup_eq_none found, ← keys_after_empty root, length_keys]
              have unknown := lookup_eq_none_iff.mp found
              rw [keys_after_empty] at unknown
              rw [if_neg unknown, number, if_neg (Nat.lt_irrefl _), List.length_append,
                List.length_singleton, List.range_succ]
          | some other =>
              have given := (lookup_after_empty root calls path other).mp found
              have number : (((empty root).after calls).register path).2 = other := by
                rw [register, found]
              rw [if_pos (List.mem_of_getElem? given), number,
                if_pos (List.getElem?_eq_some_iff.mp given).1]
      | lookup | attach | markResolved =>
          rw [firstKeys_concat_of_path?_eq_none calls rfl, ← inductionHypothesis]
          exact congrArg List.eraseDups (List.append_nil _)

/-- Whatever is called on a new registry, files get the numbers from zero on, in the order in which
their paths are first registered, and paths with the same components are one file.  A path is found
if such a path was registered, and from then on under the same number; a resolved file stays
resolved; and calls that register nothing change no number. -/
theorem calls_number_paths_once (root : Path) (calls : List Call) :
    ((empty root).issued calls).eraseDups = List.range (firstKeys calls).length ∧
    (∀ path id, ((empty root).after calls).lookup path = some id ↔
      (firstKeys calls)[id]? = some path.components) ∧
    (∀ path, (((empty root).after calls).lookup path).isSome ↔
      ∃ earlier ∈ registered calls, earlier.components = path.components) ∧
    (∀ path other id, ((empty root).after calls).lookup path = some id →
      ((empty root).after calls).lookup other = some id → path.components = other.components) ∧
    (∀ path, ((empty root).after (calls ++ [.register path])).lookup path =
      some (((empty root).after calls).register path).2) ∧
    (∀ more path id, ((empty root).after calls).lookup path = some id →
      ((empty root).after (calls ++ more)).lookup path = some id) ∧
    (∀ more id, ((empty root).after calls).state? id = some .resolved →
      ((empty root).after (calls ++ more)).state? id = some .resolved) ∧
    (∀ call : Call, call.path? = none → ∀ path,
      ((empty root).after (calls ++ [call])).lookup path =
        ((empty root).after calls).lookup path) ∧
    (∀ front back : Text,
      Path.components ⟨front ++ '/' :: '.' :: '/' :: back⟩ =
        Path.components ⟨front ++ '/' :: back⟩ ∧
      Path.components ⟨front ++ '/' :: '/' :: back⟩ = Path.components ⟨front ++ '/' :: back⟩) ∧
    (∀ text : Text, text ≠ [] → Path.components ⟨text ++ ['/']⟩ = Path.components ⟨text⟩) ∧
    (∀ path : Path, path.components.count .parent = path.pieces.count ['.', '.']) := by
  have tellsNumber := lookup_after_empty root calls
  refine ⟨eraseDups_issued root calls, tellsNumber, ?_, ?_, ?_, ?_, ?_, ?_, ?_, ?_, ?_⟩
  · intro path
    rw [← mem_firstKeys_iff, List.mem_iff_getElem?, Option.isSome_iff_exists]
    exact exists_congr fun id => tellsNumber path id
  · intro path other id found otherFound
    have atPlace := (tellsNumber path id).mp found
    rw [(tellsNumber other id).mp otherFound] at atPlace
    exact (Option.some.inj atPlace).symm
  · intro path
    rw [after_append]
    exact identifies_self _ path
  · intro more path id found
    rw [after_append]
    exact lookup_after more found
  · intro more id resolved
    rw [after_append]
    exact resolved_after more resolved
  · intro call quiet path
    rw [after_append, lookup_eq_numberOf?, lookup_eq_numberOf?, numberOf?, numberOf?]
    exact congrArg (List.findIdx? _) (keys_apply_of_path?_eq_none quiet)
  · intro front back
    exact ⟨Path.components_append_dot front back, Path.components_append_slashes front back⟩
  · intro text nonempty
    exact Path.components_concat_slash nonempty
  · exact Path.count_parent_components

/-- Two files, of which the second is reached through the directory above, and the first is done. -/
def twoFiles : List Call :=
  [.register (.ofString "/a/./c"), .register (.ofString "/a/../c"), .markResolved 0]

/-- The first file is registered again, spelled in another way: it keeps its number and stays
resolved. -/
theorem calls_number_twoFiles :
    ((empty (.ofString "/a")).after twoFiles).lookup (.ofString "/a/c/") = some 0 ∧
      ((empty (.ofString "/a")).after twoFiles).lookup (.ofString "/a/../c") = some 1 ∧
      ((empty (.ofString "/a")).after twoFiles).state? 0 = some .resolved ∧
      (((empty (.ofString "/a")).after twoFiles).register (.ofString "/a//c")).2 = 0 ∧
      ∀ more,
        ((empty (.ofString "/a")).after (twoFiles ++ more)).lookup (.ofString "/a/c/") = some 0 ∧
          ((empty (.ofString "/a")).after (twoFiles ++ more)).lookup (.ofString "/a/../c") =
            some 1 ∧
          ((empty (.ofString "/a")).after (twoFiles ++ more)).state? 0 = some .resolved := by
  have first : ((empty (.ofString "/a")).after twoFiles).lookup (.ofString "/a/c/") = some 0 := by
    decide +kernel
  have second :
      ((empty (.ofString "/a")).after twoFiles).lookup (.ofString "/a/../c") = some 1 := by
    decide +kernel
  have done : ((empty (.ofString "/a")).after twoFiles).state? 0 = some .resolved := by
    decide +kernel
  obtain ⟨_, _, _, _, _, keepsNumber, staysResolved, _⟩ :=
    calls_number_paths_once (.ofString "/a") twoFiles
  refine ⟨first, second, done, by decide +kernel, ?_⟩
  intro more
  exact ⟨keepsNumber more _ _ first, keepsNumber more _ _ second, staysResolved more _ done⟩

end Registry

end Inliner
