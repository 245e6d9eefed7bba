import Inliner.Merge.Module
import Inliner.Selection.Select
import Inliner.Text.Blank

/-!
Writing modules. Each request that is served adds a chunk made of pieces. A segment is written
for the first request that asks for it only, and so is an import that two library modules have
in common.
-/

namespace Inliner

/-! ## Pieces and chunks -/

/-- A piece of the text written for a request. -/
inductive Piece where
  | segment (index : Nat) (text : Text)
  | assignment (text : Text)
  | trailing (text : Text)
  | verbatim (text : Text)
deriving DecidableEq, Repr, Inhabited

namespace Piece

def text : Piece → Text
  | .segment _ text | .assignment text | .trailing text | .verbatim text => text

def segment? : Piece → Option Nat
  | .segment index _ => some index
  | .assignment _ | .trailing _ | .verbatim _ => none

end Piece

/-- The pieces written for a request. The first line `shebang` is left out, because it stands at the
top of the whole text. -/
structure Chunk where
  module : Nat
  isMain : Bool
  pieces : List Piece
  shebang : Option Text
deriving DecidableEq, Repr, Inhabited

/-- Whether an empty line is due before a segment, since it does not follow the segment before
it in the module. -/
def gapBefore (previous : Option Nat) (index : Nat) (text : Text) : Bool :=
  previous.any (· + 1 ≠ index) && text.head? ≠ some '\n'

/-- Pieces one after the other, where `previous` is the segment before them. -/
def joinPieces : Option Nat → List Piece → Text
  | _, [] => []
  | previous, .segment index text :: pieces =>
      (if gapBefore previous index text then ['\n'] else []) ++ text ++
        joinPieces (some index) pieces
  | previous, piece :: pieces => piece.text ++ joinPieces previous pieces

/-- A text without its first line and the line ends after it, if it starts with this line. -/
def withoutShebang (line : Text) (text : Text) : Text :=
  match Text.withoutStart? line text with
  | some rest => rest.dropWhile fun character => character == '\r' || character == '\n'
  | none => text

namespace Chunk

def text (chunk : Chunk) : Text :=
  let joined := joinPieces none chunk.pieces
  match chunk.shebang with
  | some line => withoutShebang line joined
  | none => joined

def isBlank (chunk : Chunk) : Bool :=
  Text.isBlank chunk.text

end Chunk

/-- Chunks one after the other, with empty lines where the module changes. `last` is the module
before them. -/
def joinChunks : Option Nat → List Chunk → Text
  | _, [] => []
  | last, chunk :: chunks =>
      (if last.any (· ≠ chunk.module) then ['\n', '\n'] else []) ++ Text.terminated chunk.text ++
        joinChunks (some chunk.module) chunks

/-! ## What has been written -/

/-- What has been written, and is not written again: segments by the number of the module and the
index, files that are written as they are, and the lines of imports and assignments. -/
structure Written where
  segments : List (Nat × Nat)
  files : List Nat
  lines : List Text
deriving DecidableEq, Repr, Inhabited

namespace Written

def nothing : Written := ⟨[], [], []⟩

def addLine (written : Written) (line : Text) (piece : Piece) : Written × List Piece :=
  if written.lines.any (· = line) then
    (written, [])
  else
    ({ written with lines := written.lines ++ [line] }, [piece])

def addSegment (written : Written) (module : Module) (source : ParsedSource) (index : Nat) :
    Written × List Piece :=
  if (module.id, index) ∈ written.segments then
    (written, [])
  else
    let text := source.renderAt module.edit index
    let marked := { written with segments := written.segments ++ [(module.id, index)] }
    if !module.isMain && (source.statementsOf index).all (·.kind == .importing) &&
        !Text.isBlank text then
      marked.addLine (Text.trim text) (.segment index text)
    else
      (marked, [.segment index text])

def addSegments (module : Module) (source : ParsedSource) :
    Written → List Nat → Written × List Piece
  | written, [] => (written, [])
  | written, index :: indices =>
      let (first, pieces) := written.addSegment module source index
      let (last, more) := addSegments module source first indices
      (last, pieces ++ more)

end Written

def ImportedName.assignment? (name : ImportedName) : Option Text :=
  match name.newName with
  | some newName =>
      if newName = name.name then none else some (newName ++ " = " ++ name.name ++ "\n").toList
  | none => none

namespace Written

def addAssignments : Written → List ImportedName → Written × List Piece
  | written, [] => (written, [])
  | written, name :: names =>
      match name.assignment? with
      | none => addAssignments written names
      | some line =>
          let (first, pieces) := written.addLine line (.assignment line)
          let (last, more) := addAssignments first names
          (last, pieces ++ more)

end Written

/-! ## Serving requests -/

namespace Request

def selection (request : Request) (source : ParsedSource) (policy : SymbolPolicy) : Selection :=
  match request with
  | .main | .whole => ⟨source.indices, []⟩
  | .names imported => source.select (imported.map (·.name)) policy

/-- Writes what comes after the segments that a request takes. -/
def addRest (request : Request) (source : ParsedSource) (written : Written) :
    Written × List Piece :=
  match request with
  | .main => (written, [.trailing source.trailingText])
  | .whole => (written, [])
  | .names imported => written.addAssignments imported

end Request

/-- The first line of a text, if it tells which program runs it. -/
def shebang? (text : Text) : Option Text :=
  (Text.lines text).head?.filter fun line => ['#', '!'].isPrefixOf line

namespace Module

def missing (module : Module) (request : Request) (policy : SymbolPolicy) : List String :=
  match module.parsed with
  | some source => (request.selection source policy).missing
  | none => []

end Module

namespace Written

/-- Writes what a request takes from a module. -/
def addPieces (written : Written) (module : Module) (request : Request) (policy : SymbolPolicy) :
    Written × List Piece :=
  match module.parsed with
  | none =>
      if module.id ∈ written.files then
        (written, [])
      else
        ({ written with files := written.files ++ [module.id] }, [.verbatim module.text])
  | some source =>
      let (first, pieces) :=
        addSegments module source written (request.selection source policy).segments
      let (last, rest) := request.addRest source first
      (last, pieces ++ rest)

end Written

structure Output where
  written : Written
  chunks : List Chunk
deriving DecidableEq, Repr, Inhabited

namespace Output

def empty : Output := ⟨.nothing, []⟩

def serve (policy : SymbolPolicy) (output : Output) (module : Module) (request : Request) :
    Output :=
  let (written, pieces) := output.written.addPieces module request policy
  let chunk : Chunk :=
    { module := module.id
      isMain := module.isMain
      pieces := pieces
      shebang := if request = .main then shebang? module.text else none }
  ⟨written, output.chunks ++ [chunk]⟩

def visible (output : Output) : List Chunk :=
  output.chunks.filter (!·.isBlank)

def text (output : Output) : Text :=
  joinChunks none output.visible

/-- The numbers of the library modules that are part of the text, in the order in which they
first come up. -/
def libraryModules (output : Output) : List Nat :=
  ((output.visible.filter (!·.isMain)).map (·.module)).eraseDups

end Output

end Inliner
