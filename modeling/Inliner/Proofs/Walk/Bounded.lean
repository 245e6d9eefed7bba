import Inliner.Proofs.Walk.Invariant

/-!
# Walks with a bound on their steps

`Walk.run` ends because a measure gets smaller, which is nothing to compute with.  A run with a
bound on its steps gives the same result wherever it gives one, and can be evaluated.
-/

namespace Inliner

namespace Walk

/-- Walks on for at most some steps. -/
def runWithin (setting : Setting) : Nat → Walk → Option (Walk × Option MergeError)
  | 0, _ => none
  | steps + 1, walk =>
      match walk.step setting with
      | .done => some (walk, none)
      | .failed remarks error =>
          some ({ walk with events := walk.events ++ remarks.map .remark }, some error)
      | .next after => runWithin setting steps after

theorem run_of_runWithin
    {setting : Setting} {result : Walk × Option MergeError} :
    ∀ {steps : Nat} {walk : Walk},
      walk.runWithin setting steps = some result → walk.run setting = result
  | 0, _, ended => by
      simp [runWithin] at ended
  | steps + 1, walk, ended => by
      rw [run]
      unfold runWithin at ended
      split at ended
      next finished => split <;> simp_all
      next remarks error failed => split <;> simp_all
      next after stepped =>
        have later := run_of_runWithin ended
        split <;> simp_all

end Walk

namespace Setting

/-- The walk from a main file, if it comes to its end within some steps. -/
def walkWithin (setting : Setting) (steps : Nat) (main : Location) : Option Walk :=
  match setting.load 0 main true with
  | (_, .error _) => none
  | (remarks, .ok module) =>
      match ((Walk.empty setting).push module remarks .main).runWithin setting steps with
      | some (walk, none) => if module.isVerbatim then none else some walk
      | _ => none

/-- A walk that comes to its end within some steps does so without a bound. -/
theorem completes_of_walkWithin
    {setting : Setting} {main : Location} {walk : Walk} (steps : Nat)
    (ended : setting.walkWithin steps main = some walk) :
    setting.Completes main walk := by
  unfold walkWithin at ended
  split at ended
  next => simp at ended
  next remarks module loaded =>
    split at ended
    next last ran =>
      split at ended
      next => simp at ended
      next analysed =>
        obtain rfl := Option.some.inj ended
        have isParsed : module.parsed.isSome = true := by
          rw [Module.isVerbatim, Option.isNone_iff_eq_none] at analysed
          exact Option.isSome_iff_ne_none.mpr analysed
        exact ⟨remarks, module, loaded, parsed_of_load loaded, isParsed,
          Walk.run_of_runWithin ran⟩
    next => simp at ended

/-- A main file whose walk comes to its end is merged into what the walk amounts to. -/
theorem mergeAt_of_run
    {setting : Setting} {main : Location} {remarks : List Remark} {module : Module} {walk : Walk}
    (loaded : setting.load 0 main true = (remarks, .ok module))
    (analysed : module.isVerbatim = false)
    (ran : ((Walk.empty setting).push module remarks .main).run setting = (walk, none)) :
    setting.mergeAt main =
      (setting.remarks walk.registry walk.events,
        .ok (setting.outcome main module.text walk)) := by
  unfold mergeAt
  rw [loaded]
  dsimp only
  rw [analysed, ran]
  rfl

theorem mergeAt_eq_of_walkWithin
    {setting : Setting} {main : Location} {text : Text} {walk : Walk} (steps : Nat)
    (readable : setting.tree.readAt main = .ok text)
    (ended : setting.walkWithin steps main = some walk) :
    setting.mergeAt main =
      (setting.remarks walk.registry walk.events, .ok (setting.outcome main text walk)) := by
  obtain ⟨remarks, module, loaded, _, isParsed, ran⟩ := completes_of_walkWithin steps ended
  have analysed : module.isVerbatim = false := by
    rw [Module.isVerbatim, Option.isNone_eq_false_iff]
    exact isParsed
  have sameText : module.text = text := by
    have read := text_of_load loaded
    rw [readable] at read
    exact (Except.ok.inj read).symm
  rw [mergeAt_of_run loaded analysed ran, sameText]

/-- A main file whose walk comes to its end within some steps can be merged. -/
theorem mergeAt_of_walkWithin
    {setting : Setting} {main : Location} (steps : Nat)
    (ended : (setting.walkWithin steps main).isSome = true) :
    ∃ remarks outcome, setting.mergeAt main = (remarks, .ok outcome) := by
  obtain ⟨walk, found⟩ := Option.isSome_iff_exists.mp ended
  obtain ⟨remarks, module, loaded, _⟩ := completes_of_walkWithin steps found
  exact ⟨_, _, mergeAt_eq_of_walkWithin steps (text_of_load loaded) found⟩

theorem merge_of_walkWithin
    {config : MergeConfig} {tree : FileTree} {file : Path} (steps : Nat)
    (valid : config.validate tree = .ok ())
    (ended : (walkWithin ⟨config, tree⟩ steps (tree.normalize file)).isSome = true) :
    ∃ remarks outcome, merge config tree file = (remarks, .ok outcome) := by
  unfold merge
  rw [valid]
  exact mergeAt_of_walkWithin steps ended

end Setting

/-- What the file that a path leads to is merged into, if its walk comes to its end within some
steps. -/
def mergeWithin (steps : Nat) (config : MergeConfig) (tree : FileTree) (file : Path) :
    Option Outcome :=
  match config.validate tree, tree.readAt (tree.normalize file),
    Setting.walkWithin ⟨config, tree⟩ steps (tree.normalize file) with
  | .ok (), .ok text, some walk =>
      some (Setting.outcome ⟨config, tree⟩ (tree.normalize file) text walk)
  | _, _, _ => none

theorem merge_eq_of_mergeWithin
    {config : MergeConfig} {tree : FileTree} {file : Path} {outcome : Outcome} (steps : Nat)
    (given : mergeWithin steps config tree file = some outcome) :
    ∃ remarks, merge config tree file = (remarks, .ok outcome) := by
  unfold mergeWithin at given
  split at given
  next original walk valid readable ended =>
    obtain rfl := Option.some.inj given
    have merged := Setting.mergeAt_eq_of_walkWithin steps readable ended
    rw [merge, valid]
    exact ⟨_, merged⟩
  next => cases given

theorem merge_of_mergeWithin
    {config : MergeConfig} {tree : FileTree} {file : Path} {text : Text} (steps : Nat)
    (given : (mergeWithin steps config tree file).map (·.text) = some text) :
    ∃ remarks outcome,
      merge config tree file = (remarks, .ok outcome) ∧ outcome.text = text := by
  obtain ⟨outcome, found, sameText⟩ := Option.map_eq_some_iff.mp given
  obtain ⟨remarks, merged⟩ := merge_eq_of_mergeWithin steps found
  exact ⟨remarks, outcome, merged, sameText⟩

end Inliner
