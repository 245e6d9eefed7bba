import Inliner.Text.Basic

/-!
File patterns. A pattern describes whole path texts: `?` stands for any byte, `*` for any bytes,
`[…]` for one byte of a class and `{…}` for alternatives; two stars that make up a component stand
for any number of components.
-/

namespace Inliner

/-- A part of a pattern. The directories are what two stars stand for at the start, at the end and
in the middle of a path. -/
inductive PatternPart where
  | literal (character : Char)
  | any
  | many
  | oneOf (negated : Bool) (ranges : List (Char × Char))
  | leadingDirectories
  | everythingBelow
  | innerDirectories
  | alternatives (branches : List (List PatternPart))
deriving Repr, Inhabited

/-- Why a text is no pattern. -/
inductive PatternError where
  | unclosedClass
  | invalidRange (low high : Char)
  | unclosedAlternatives
  | unopenedAlternatives
  | danglingEscape
deriving DecidableEq, Repr

namespace PatternError

def message : PatternError → String
  | .unclosedClass => "unclosed character class; missing ']'"
  | .invalidRange low high =>
      "invalid range; '" ++ low.toString ++ "' > '" ++ high.toString ++ "'"
  | .unclosedAlternatives =>
      "unclosed alternate group; missing '\x7d' (maybe escape '\x7b' with '[\x7b]'?)"
  | .unopenedAlternatives =>
      "unopened alternate group; missing '\x7b' (maybe escape '\x7d' with '[\x7d]'?)"
  | .danglingEscape => "dangling '\\'"

end PatternError

namespace Pattern

/-! ## Reading -/

/-- A class that is being read, its ranges the last one first. A hyphen after the last range may
wait for its upper end. -/
structure ClassDraft where
  negated : Bool
  ranges : List (Char × Char)
  inRange : Bool
  first : Bool

namespace ClassDraft

def add (draft : ClassDraft) (character : Char) : Except PatternError ClassDraft :=
  match draft.ranges with
  | (low, _) :: ranges =>
      if draft.inRange then
        if character < low then
          .error (.invalidRange low character)
        else
          .ok { draft with ranges := (low, character) :: ranges, inRange := false, first := false }
      else if character = '-' ∧ !draft.first then
        .ok { draft with inRange := true }
      else
        .ok { draft with ranges := (character, character) :: draft.ranges, first := false }
  | [] => .ok { draft with ranges := [(character, character)], first := false }

/-- The class that has been read. A hyphen at its end stands for itself. -/
def part (draft : ClassDraft) : PatternPart :=
  let ranges := if draft.inRange then ('-', '-') :: draft.ranges else draft.ranges
  .oneOf draft.negated ranges.reverse

end ClassDraft

/-- A pattern that is being read: the parts of the innermost open branch, the last one first, and
for each open group of alternatives, the innermost first, its branches before that one and the parts
before the group. -/
structure Draft where
  branch : List PatternPart
  groups : List (List (List PatternPart) × List PatternPart)
  previous : Option Char
  openClass : Option ClassDraft

namespace Draft

def push (draft : Draft) (part : PatternPart) (previous : Char) : Draft :=
  { draft with branch := part :: draft.branch, previous := some previous }

def openGroup (draft : Draft) : Draft :=
  { draft with
    branch := []
    groups := ([], draft.branch) :: draft.groups
    previous := some '\x7b' }

/-- A draft in which the next alternative starts; outside a group, a comma is a comma. -/
def comma (draft : Draft) : Draft :=
  match draft.groups with
  | [] => draft.push (.literal ',') ','
  | (branches, before) :: groups =>
      { draft with
        branch := []
        groups := (draft.branch.reverse :: branches, before) :: groups
        previous := some ',' }

/-- A draft in which the innermost group of alternatives closes. -/
def closeGroup (draft : Draft) : Except PatternError Draft :=
  match draft.groups with
  | [] => .error .unopenedAlternatives
  | (branches, before) :: groups =>
      let all := (draft.branch.reverse :: branches).reverse
      .ok { draft with
        branch := .alternatives all :: before
        groups := groups
        previous := some '\x7d' }

/-- A draft after two stars that are no component of their own. -/
def twoStars (draft : Draft) : Draft :=
  (draft.push .many '*').push .many '*'

/-- Whether two stars before a text may end a component. -/
def endsComponent (draft : Draft) : Text → Bool
  | [] => true
  | next :: _ => (next == ',' || next == '\x7d') && !draft.groups.isEmpty

/-- A draft after two stars that follow a slash, in which the slash becomes part of them. -/
def replaceSlash (draft : Draft) (part : PatternPart) (previous : Char) : Draft :=
  match draft.branch with
  | .leadingDirectories :: _ | .everythingBelow :: _ => { draft with previous := some previous }
  | _ :: before => { draft with branch := part :: before, previous := some previous }
  | [] => draft.push part previous

end Draft

/-- A draft after a character outside a class, and the number of characters after it that it
takes along. -/
def advance (draft : Draft) (character : Char) (rest : Text) : Except PatternError (Draft × Nat) :=
  match character, rest with
  | '?', _ => .ok (draft.push .any '?', 0)
  | '*', '*' :: '/' :: _ =>
      if draft.branch.isEmpty then
        .ok (draft.push .leadingDirectories '/', 2)
      else if draft.previous = some '/' then
        .ok (draft.replaceSlash .innerDirectories '/', 2)
      else
        .ok (draft.twoStars, 1)
  | '*', '*' :: after =>
      if draft.branch.isEmpty then
        .ok (if after.isEmpty then draft.push .leadingDirectories '*' else draft.twoStars, 1)
      else if draft.previous = some '/' ∧ draft.endsComponent after then
        .ok (draft.replaceSlash .everythingBelow '*', 1)
      else
        .ok (draft.twoStars, 1)
  | '*', _ => .ok (draft.push .many '*', 0)
  | '[', '!' :: _ | '[', '^' :: _ =>
      .ok ({ draft with openClass := some ⟨true, [], false, true⟩ }, 1)
  | '[', _ => .ok ({ draft with openClass := some ⟨false, [], false, true⟩ }, 0)
  | '\x7b', _ => .ok (draft.openGroup, 0)
  | '\x7d', _ => draft.closeGroup.map (·, 0)
  | ',', _ => .ok (draft.comma, 0)
  | '\\', [] => .error .danglingEscape
  | '\\', escaped :: _ => .ok (draft.push (.literal escaped) escaped, 1)
  | _, _ => .ok (draft.push (.literal character) character, 0)

/-- Reads the rest of a pattern. `skip` characters are passed over first. -/
def readFrom (draft : Draft) (skip : Nat) : Text → Except PatternError Draft
  | [] => if draft.openClass.isSome then .error .unclosedClass else .ok draft
  | character :: rest =>
      match skip, draft.openClass with
      | skip + 1, _ => readFrom draft skip rest
      | 0, some openClass =>
          if character = ']' ∧ !openClass.first then
            readFrom { draft.push openClass.part ']' with openClass := none } 0 rest
          else
            match openClass.add character with
            | .ok extended => readFrom { draft with openClass := some extended } 0 rest
            | .error error => .error error
      | 0, none =>
          match advance draft character rest with
          | .ok (advanced, length) => readFrom advanced length rest
          | .error error => .error error

/-- The pattern that a text describes. -/
def parse (text : Text) : Except PatternError (List PatternPart) :=
  match readFrom ⟨[], [], none, none⟩ 0 text with
  | .error error => .error error
  | .ok draft =>
      if draft.groups.isEmpty then .ok draft.branch.reverse else .error .unclosedAlternatives

/-! ## Matching -/

def bytesOf (text : Text) : List UInt8 :=
  text.flatMap String.utf8EncodeChar

/-- The ranges of bytes that a range of characters stands for: its ends are put next to each
other byte by byte, and the hyphen stands between the last byte of one and the first of the
other. -/
def byteRanges (low high : Char) : List (UInt8 × UInt8) :=
  let first := String.utf8EncodeChar low
  let second := String.utf8EncodeChar high
  let single (bytes : List UInt8) := bytes.map fun byte => (byte, byte)
  if low = high then
    single first
  else
    match first.getLast?, second with
    | some last, next :: more => single first.dropLast ++ (last, next) :: single more
    | _, _ => []

def inClass (ranges : List (Char × Char)) (byte : UInt8) : Bool :=
  ranges.any fun (low, high) => (byteRanges low high).any fun (first, last) =>
    first ≤ byte && byte ≤ last

/-- All ends of a list, from the whole list to the empty one. -/
def tails : List UInt8 → List (List UInt8)
  | [] => [[]]
  | byte :: rest => (byte :: rest) :: tails rest

/-- What can remain of bytes after a slash and anything. -/
def afterSlashes (bytes : List UInt8) : List (List UInt8) :=
  (tails bytes).filterMap fun rest =>
    match rest with
    | 47 :: more => some more
    | _ => none

/-- What can remain of bytes after one that passes a test. -/
def afterByte (accepts : UInt8 → Bool) : List UInt8 → List (List UInt8)
  | [] => []
  | byte :: rest => if accepts byte then [rest] else []

mutual

/-- Whether a part stands for nothing at all: alternatives without any that stands for
something. -/
def isVoid : PatternPart → Bool
  | .alternatives branches => areVoid branches
  | _ => false

def isVoidSequence : List PatternPart → Bool
  | [] => true
  | part :: parts => isVoid part && isVoidSequence parts

def areVoid : List (List PatternPart) → Bool
  | [] => true
  | branch :: branches => isVoidSequence branch && areVoid branches

end

mutual

/-- What can remain of bytes after a part of a pattern. -/
def remainders : PatternPart → List UInt8 → List (List UInt8)
  | .literal character, bytes =>
      let encoded := String.utf8EncodeChar character
      if encoded.isPrefixOf bytes then [bytes.drop encoded.length] else []
  | .any, bytes => afterByte (fun _ => true) bytes
  | .many, bytes => tails bytes
  | .oneOf negated ranges, bytes => afterByte (fun byte => inClass ranges byte != negated) bytes
  | .leadingDirectories, bytes =>
      (bytes :: afterByte (· == 47) bytes ++ afterSlashes bytes).eraseDups
  | .everythingBelow, bytes =>
      match bytes with
      | 47 :: rest => tails rest
      | _ => []
  | .innerDirectories, bytes =>
      match bytes with
      | 47 :: rest => (rest :: afterSlashes rest).eraseDups
      | _ => []
  | .alternatives branches, bytes =>
      if areVoid branches then [bytes] else branchRemainders branches bytes

/-- What can remain of bytes after one of some patterns; one that stands for nothing does not
count. -/
def branchRemainders : List (List PatternPart) → List UInt8 → List (List UInt8)
  | [], _ => []
  | branch :: branches, bytes =>
      let others := branchRemainders branches bytes
      if isVoidSequence branch then
        others
      else
        (sequenceRemainders branch [bytes] ++ others).eraseDups

/-- What can remain after the parts of a pattern, one after the other, starting from any of some
byte lists. -/
def sequenceRemainders : List PatternPart → List (List UInt8) → List (List UInt8)
  | [], starts => starts
  | part :: parts, starts =>
      sequenceRemainders parts ((starts.flatMap fun bytes => remainders part bytes).eraseDups)

end

/-- Whether a pattern describes a text. A pattern of two stars alone describes every text. -/
def isMatch (parts : List PatternPart) (text : Text) : Bool :=
  match parts with
  | [.leadingDirectories] => true
  | _ => [] ∈ sequenceRemainders parts [bytesOf text]

end Pattern

end Inliner
