import Inliner.Text.Basic

/-!
Paths. A path is a text in which slashes separate names. Its text is kept as it is written, and
its components are what it means: repeated slashes, slashes at the end and dots in the middle do
not count. A name may have bytes that belong to no character; each of them stands in the text as
the one character that no name has.
-/

namespace Inliner

/-- A path, as it is written. -/
structure Path where
  text : Text
deriving DecidableEq, Repr, Inhabited

inductive Component where
  | root
  | current
  | parent
  | normal (name : Text)
deriving DecidableEq, Repr, Inhabited

namespace Component

def text : Component → Text
  | .root => ['/']
  | .current => ['.']
  | .parent => ['.', '.']
  | .normal name => name

/-- The component that stands between two slashes; a dot or nothing at all is none. -/
def ofPiece? (piece : Text) : Option Component :=
  if piece = [] ∨ piece = ['.'] then
    none
  else if piece = ['.', '.'] then
    some .parent
  else
    some (.normal piece)

end Component

namespace Path

def ofString (text : String) : Path :=
  ⟨text.toList⟩

/-- What stands in a path for a byte that belongs to no character. -/
def strayByte : Char := '\x00'

/-- A text of a path as it is shown, with replacement characters for stray bytes. -/
def shown (text : Text) : Text :=
  text.map fun character => if character = strayByte then '\uFFFD' else character

def toString (path : Path) : String :=
  String.ofList (shown path.text)

/-- Whether the path can be written down as a string. -/
def isUnicode (path : Path) : Bool :=
  !path.text.contains strayByte

def isAbsolute (path : Path) : Bool :=
  path.text.head? == some '/'

def pieces (path : Path) : List Text :=
  Text.splitAt '/' path.text

/-- The components of a path. Two paths are the same if their components are. -/
def components (path : Path) : List Component :=
  let names := path.pieces.filterMap Component.ofPiece?
  if path.isAbsolute then
    .root :: names
  else if path.pieces.head? = some ['.'] then
    .current :: names
  else
    names

/-- A path below another one; an absolute path stays as it is. -/
def join (base path : Path) : Path :=
  if path.isAbsolute then
    path
  else if base.text = [] ∨ base.text.getLast? = some '/' then
    ⟨base.text ++ path.text⟩
  else
    ⟨base.text ++ '/' :: path.text⟩

/-- An absolute path as it is, and a relative one below a base. -/
def anchoredAt (path base : Path) : Path :=
  if path.isAbsolute then path else base.join path

/-- Drops what does not count from the start of a reversed path: slashes and single dots between
slashes. `start` is the number of characters before the first name that are always kept. -/
def trimReversed (start : Nat) : Text → Text
  | [] => []
  | '/' :: rest => if rest.length < start then '/' :: rest else trimReversed start rest
  | ['.'] => if start = 0 then [] else ['.']
  | '.' :: '/' :: rest =>
      if rest.length + 1 < start then
        '.' :: '/' :: rest
      else
        trimReversed start ('/' :: rest)
  | character :: rest => character :: rest

def startLength (path : Path) : Nat :=
  if path.isAbsolute || path.pieces.head? == some ['.'] then 1 else 0

/-- The text of a path, reversed, without what does not count at its end. -/
def trimmedReversed (path : Path) : Text :=
  trimReversed path.startLength path.text.reverse

/-- The path without its last component; `none` if it has none or is the root. -/
def parent? (path : Path) : Option Path :=
  match path.components.getLast? with
  | none | some .root => none
  | some component =>
      let rest := path.trimmedReversed.drop component.text.length
      some ⟨(trimReversed (min path.startLength rest.length) rest).reverse⟩

def fileName? (path : Path) : Option Text :=
  match path.components.getLast? with
  | some (.normal name) => some name
  | _ => none

/-- A file name cut at its last dot: what stands before it and what stands after it. A dot at
the start does not count. -/
def splitExtension (name : Text) : Text × Option Text :=
  let after := (name.reverse.takeWhile (· ≠ '.')).reverse
  let before := name.take (name.length - after.length - 1)
  if before = [] then (name, none) else (before, some after)

def extension? (path : Path) : Option Text :=
  path.fileName?.bind fun name => (splitExtension name).2

/-- The path with another extension after its last name. -/
def withExtension (path : Path) (extension : Text) : Path :=
  match path.fileName? with
  | none => path
  | some name =>
      let stem := (splitExtension name).1
      let base := path.trimmedReversed.reverse
      let kept := base.take (base.length - (name.length - stem.length))
      if extension = [] then ⟨kept⟩ else ⟨kept ++ '.' :: extension⟩

/-- The components of a path after those of another one, if it starts with them. -/
def componentsAfter? (root path : Path) : Option (List Component) :=
  if root.components.isPrefixOf path.components then
    some (path.components.drop root.components.length)
  else
    none

/-- Whether a path starts with the components of another one. -/
def isWithin (path root : Path) : Bool :=
  root.components.isPrefixOf path.components

/-- The text of a path below a root, or of the whole path if it is not below it. -/
def relativeTo (path root : Path) : Text :=
  match componentsAfter? root path with
  | some components => shown (Text.joinWith ['/'] (components.map Component.text))
  | none => shown path.text

end Path

end Inliner
