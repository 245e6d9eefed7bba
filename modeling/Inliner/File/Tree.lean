import Inliner.File.Location

/-!
File trees. A tree holds files, directories, links and devices at locations; reading and writing
give the result or say why the operating system refuses. A link stands for a path, so several paths
may lead to one location, and the location of a path need not be the one that the path spells.
-/

namespace Inliner

inductive Content where
  | text (text : Text)
  | bytes (bytes : List UInt8)
deriving DecidableEq, Repr, Inhabited

namespace Content

def ofBytes (bytes : List UInt8) : Content :=
  match String.fromUTF8? ⟨bytes.toArray⟩ with
  | some string => .text string.toList
  | none => .bytes bytes

end Content

/-- Why the operating system refuses something. -/
inductive SystemError where
  | notFound
  | isDirectory
  | notDirectory
  | alreadyExists
  | tooManyLinks
  | notText
deriving DecidableEq, Repr

namespace SystemError

def message : SystemError → String
  | .notFound => "No such file or directory (os error 2)"
  | .isDirectory => "Is a directory (os error 21)"
  | .notDirectory => "Not a directory (os error 20)"
  | .alreadyExists => "File exists (os error 17)"
  | .tooManyLinks => "Too many levels of symbolic links (os error 40)"
  | .notText => "stream did not contain valid UTF-8"

end SystemError

/-- What there is, and the directory in which relative paths start. Where there is a file or a
directory, no link and no device counts. -/
structure FileTree where
  files : List (Location × Content)
  directories : List Location
  current : Location
  links : List (Location × Path) := []
  devices : List Location := []
deriving DecidableEq, Repr, Inhabited

namespace FileTree

/-- The device that takes every text and keeps none. -/
def nullDevice : Location :=
  ⟨["dev".toList, "null".toList]⟩

def empty (current : Location) : FileTree where
  files := []
  directories := current :: current.ancestors ++ [nullDevice.parent]
  current := current
  devices := [nullDevice]

/-- Whether there is a directory at a location: the root, a directory of the tree, or one above
it. -/
def hasDirectory (tree : FileTree) (location : Location) : Bool :=
  location == .root || tree.directories.any (location.names.isPrefixOf ·.names)

def content? (tree : FileTree) (location : Location) : Option Content :=
  if tree.hasDirectory location then none else tree.files.lookup location

/-- Whether there is anything but a link at a location. -/
def hasEntry (tree : FileTree) (location : Location) : Bool :=
  (tree.content? location).isSome || tree.hasDirectory location || tree.devices.contains location

/-! ## Following a path -/

inductive Step where
  | slash
  | stay
  | up
  | down (name : Text)
deriving DecidableEq, Repr

/-- The step that stands between two slashes. Nothing there stays where one is, as a dot does. -/
def Step.ofPiece (piece : Text) : Step :=
  if piece = [] then .slash
  else if piece = ['.'] then .stay
  else if piece = ['.', '.'] then .up
  else .down piece

/-- The steps of a path. A slash at the end asks for a directory. -/
def steps (path : Path) : List Step :=
  path.pieces.map Step.ofPiece

/-- Why steps lead nowhere: a directory has no such name, and these steps would come after it; or
the operating system refuses to go on. -/
inductive Obstacle where
  | vacant (directory : Location) (name : Text) (rest : List Step)
  | refused (error : SystemError)
deriving DecidableEq, Repr

/-- The refusal that an obstacle amounts to if something has to be there. -/
def Obstacle.error : Obstacle → SystemError
  | .vacant _ _ _ => .notFound
  | .refused error => error

/-- The location from which the path of a link starts: the root, or the directory of the link. -/
def linkStart (directory : Location) (target : Path) : Location :=
  if target.isAbsolute then .root else directory

/-- Takes steps from a location on. Every step starts in a directory, and a link is left to
`jump`, with the location and the steps from which to go on. -/
def followUntilLink (tree : FileTree) (left : Nat)
    (jump : Location → List Step → Except Obstacle (Location × Nat)) :
    Location → List Step → Except Obstacle (Location × Nat)
  | location, [] => .ok (location, left)
  | location, step :: rest =>
      if !tree.hasDirectory location then
        .error (.refused .notDirectory)
      else
        match step with
        | .slash | .stay => followUntilLink tree left jump location rest
        | .up => followUntilLink tree left jump location.parent rest
        | .down name =>
            if tree.hasEntry (location.child name) then
              followUntilLink tree left jump (location.child name) rest
            else
              match tree.links.lookup (location.child name) with
              | some target => jump (linkStart location target) (steps target ++ rest)
              | none => .error (.vacant location name rest)

/-- The location that steps lead to if at most some links are followed, and how many more links
might have been. -/
def follow (tree : FileTree) : Nat → Location → List Step → Except Obstacle (Location × Nat)
  | 0 => followUntilLink tree 0 fun _ _ => .error (.refused .tooManyLinks)
  | left + 1 => followUntilLink tree (left + 1) (follow tree left)

/-- The number of links that are followed on one way. -/
def maxLinks : Nat := 40

/-- The location that steps lead to, if something is there. -/
def walk (tree : FileTree) (start : Location) (steps : List Step) :
    Except SystemError Location :=
  match follow tree maxLinks start steps with
  | .ok (location, _) => .ok location
  | .error obstacle => .error obstacle.error

/-- The location from which a path starts: the root, or where the path of the current directory
leads. -/
def start (tree : FileTree) (path : Path) : Location :=
  if path.isAbsolute then .root else .resolve .root tree.current.path

/-- The location that a path leads to, if something is there. -/
def locate (tree : FileTree) (path : Path) : Except SystemError Location :=
  if path.text = [] then .error .notFound else walk tree (tree.start path) (steps path)

def isFile (tree : FileTree) (path : Path) : Bool :=
  match tree.locate path with
  | .ok location => (tree.content? location).isSome
  | .error _ => false

def isDirectory (tree : FileTree) (path : Path) : Bool :=
  match tree.locate path with
  | .ok location => tree.hasDirectory location
  | .error _ => false

def textAt (tree : FileTree) (location : Location) : Except SystemError Text :=
  match tree.content? location with
  | some (.text text) => .ok text
  | some (.bytes _) => .error .notText
  | none => if tree.hasDirectory location then .error .isDirectory else .ok []

def read (tree : FileTree) (path : Path) : Except SystemError Text :=
  match tree.locate path with
  | .error error => .error error
  | .ok location => tree.textAt location

/-- The location to which the names of a location lead. It is the location itself if there is a
file, and may be another one if there are links on the way. -/
def place (tree : FileTree) (location : Location) : Except SystemError Location :=
  if (tree.content? location).isSome then
    .ok location
  else
    walk tree .root (location.names.map .down)

def readAt (tree : FileTree) (location : Location) : Except SystemError Text :=
  match tree.place location with
  | .error error => .error error
  | .ok place => tree.textAt place

/-! ## One location for each path -/

/-- The location of a path, whether something is there or not. What exists is found by following
the path; for anything else the components of the path decide. -/
def normalize (tree : FileTree) (path : Path) : Location :=
  match tree.locate path with
  | .ok location => location
  | .error _ => Location.resolve .root (path.anchoredAt tree.current.path)

/-! ## Changing a tree -/

/-- A tree with a directory and all directories above it. -/
def addDirectory (tree : FileTree) (location : Location) : FileTree :=
  let fresh := (location.ancestors ++ [location]).filter fun directory =>
    !tree.hasDirectory directory
  { tree with directories := tree.directories ++ fresh }

def setContent (tree : FileTree) (location : Location) (content : Content) : FileTree :=
  let files :=
    if (tree.content? location).isSome then
      tree.files.map fun file => if file.1 = location then (location, content) else file
    else
      tree.files ++ [(location, content)]
  { tree with files := files }

/-- A tree with a file at a location, in directories that are made for it. -/
def put (tree : FileTree) (location : Location) (content : Content) : FileTree :=
  (tree.addDirectory location.parent).setContent location content

/-- A tree with a link at a location, in directories that are made for it. -/
def putLink (tree : FileTree) (location : Location) (target : Path) : FileTree :=
  let above := tree.addDirectory location.parent
  { above with links := above.links ++ [(location, target)] }

def erase (tree : FileTree) (location : Location) : FileTree :=
  { tree with
    files := tree.files.filter (!location.names.isPrefixOf ·.1.names)
    directories := tree.directories.filter (!location.names.isPrefixOf ·.names)
    links := tree.links.filter (!location.names.isPrefixOf ·.1.names)
    devices := tree.devices.filter (!location.names.isPrefixOf ·.names) }

/-- The path of some components. -/
def pathOf (components : List Component) : Path :=
  ⟨Text.joinWith ['/'] (components.map Component.text)⟩

/-- Makes the directory that some components, the last one first, lead to. A link that stands
there already is not followed. -/
def makeDirectory (tree : FileTree) : List Component → Except SystemError FileTree
  | [] => .error .notFound
  | last :: before =>
      let path := pathOf (last :: before).reverse
      match last with
      | .normal name =>
          match walk tree (tree.start path) (steps (pathOf before.reverse)) with
          | .error error => .error error
          | .ok above =>
              if !tree.hasDirectory above then
                .error .notDirectory
              else if tree.hasEntry (above.child name) ||
                  (tree.links.lookup (above.child name)).isSome then
                .error .alreadyExists
              else
                .ok (tree.addDirectory (above.child name))
      | .root | .current | .parent =>
          match tree.locate path with
          | .ok _ => .error .alreadyExists
          | .error error => .error error

/-- Makes the directory that some components, the last one first, lead to, and the directories
above it. The tree that results is given in any case. -/
def makeDirectories (tree : FileTree) : List Component → FileTree × Option SystemError
  | [] => (tree, none)
  | last :: before =>
      let settle (tree : FileTree) (error : SystemError) : FileTree × Option SystemError :=
        if tree.isDirectory (pathOf (last :: before).reverse) then
          (tree, none)
        else
          (tree, some error)
      match tree.makeDirectory (last :: before) with
      | .ok made => (made, none)
      | .error .notFound =>
          match makeDirectories tree before with
          | (made, some error) => (made, some error)
          | (made, none) =>
              match made.makeDirectory (last :: before) with
              | .ok result => (result, none)
              | .error error => settle made error
      | .error error => settle tree error

/-- Writes a text to the file that a path leads to, which is made if need be. A device takes the
text and stays as it is. -/
def write (tree : FileTree) (path : Path) (text : Text) : Except SystemError FileTree :=
  if path.text = [] then
    .error .notFound
  else
    match follow tree maxLinks (tree.start path) (steps path) with
    | .ok (location, _) =>
        if (tree.content? location).isSome then
          .ok (tree.setContent location (.text text))
        else if tree.hasDirectory location then
          .error .isDirectory
        else
          .ok tree
    | .error (.vacant directory name rest) =>
        if rest = [] then
          .ok (tree.setContent (directory.child name) (.text text))
        else if rest.all (· = .slash) then
          .error .isDirectory
        else
          .error .notFound
    | .error (.refused error) => .error error

end FileTree

end Inliner
