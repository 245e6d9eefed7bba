import Inliner.File.Path

/-!
Locations: places in a file tree, named from the root on. A location is the meaning of a path:
two spellings of one place have the same location.
-/

namespace Inliner

/-- A place in a file tree: the names on the way from the root to it. -/
structure Location where
  names : List Text
deriving DecidableEq, Repr, Inhabited

namespace Location

def root : Location := ⟨[]⟩

/-- The location one step up; the root is above itself. -/
def parent (location : Location) : Location :=
  ⟨location.names.dropLast⟩

def child (location : Location) (name : Text) : Location :=
  ⟨location.names ++ [name]⟩

/-- The locations between the root and a location, both left out. -/
def ancestors (location : Location) : List Location :=
  (List.range location.names.length).tail.map fun count => ⟨location.names.take count⟩

def path (location : Location) : Path :=
  ⟨'/' :: Text.joinWith ['/'] location.names⟩

def toString (location : Location) : String :=
  location.path.toString

def components (location : Location) : List Component :=
  .root :: location.names.map .normal

def follow (location : Location) : Component → Location
  | .root => root
  | .current => location
  | .parent => location.parent
  | .normal name => location.child name

/-- The location of a path that starts at a location, told from its components alone. -/
def resolve (start : Location) (path : Path) : Location :=
  path.components.foldl follow start

end Location

end Inliner
