import Inliner.Merge.Module

/-!
The registry of the files that a merge has come across. Files are numbered in the order in which
they are first met, and paths with the same components are one file.
-/

namespace Inliner

/-- How far a file has been dealt with: its imports are being followed, or everything it needs has
been written. -/
inductive FileState where
  | inProgress
  | resolved
deriving DecidableEq, Repr, Inhabited

/-- The states of the files that have been met, the modules that have been loaded, both by their
numbers, and the numbers of the files by the components of their paths. -/
structure Registry where
  workspaceRoot : Path
  states : List FileState
  index : List (List Component × Nat)
  modules : List Module
  numbers_index : index.map (·.2) = List.range states.length
deriving DecidableEq, Repr

namespace Registry

def empty (workspaceRoot : Path) : Registry :=
  ⟨workspaceRoot, [], [], [], rfl⟩

def lookup (registry : Registry) (path : Path) : Option Nat :=
  registry.index.lookup path.components

def state? (registry : Registry) (id : Nat) : Option FileState :=
  registry.states[id]?

def module? (registry : Registry) (id : Nat) : Option Module :=
  registry.modules[id]?

/-- The registry with one more file, whose number is the number of files before. -/
def add (registry : Registry) (path : Path) : Registry :=
  { registry with
    states := registry.states ++ [.inProgress]
    index := registry.index ++ [(path.components, registry.states.length)]
    numbers_index := by simp [registry.numbers_index, List.range_succ] }

/-- Registers a file, and gives its number. A file that has been met keeps its number and its
state. -/
def register (registry : Registry) (path : Path) : Registry × Nat :=
  match registry.lookup path with
  | some id => (registry, id)
  | none => (registry.add path, registry.states.length)

/-- Adds a loaded module; its number is the number of modules before. -/
def attach (registry : Registry) (module : Module) : Registry :=
  { registry with modules := registry.modules ++ [module] }

def markResolved (registry : Registry) (id : Nat) : Registry :=
  { registry with
    states := registry.states.set id .resolved
    numbers_index := by rw [List.length_set, registry.numbers_index] }

end Registry

end Inliner
