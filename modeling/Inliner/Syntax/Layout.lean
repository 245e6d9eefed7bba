import Inliner.Text.Basic

/-!
Lines and indentation. Where one line ends and the next begins deeper or less deep, the grammar
may see a token of no width. Whether it does depends on what the grammar expects at that point:
where nothing of the kind can stand, a line break is plain white space.
-/

namespace Inliner.Syntax

/-- A place in a text that is being read: what is left from an offset on, the indentation of the
open blocks, the innermost first, and the offset after the last token. -/
structure Cursor where
  rest : Text
  offset : Nat
  indents : List Nat
  lastStop : Nat
deriving Repr, Inhabited

namespace Cursor

def ofText (text : Text) : Cursor :=
  ⟨text, 0, [], 0⟩

def indent (cursor : Cursor) : Nat :=
  cursor.indents.headD 0

def skip (cursor : Cursor) (count : Nat) : Cursor :=
  { cursor with rest := cursor.rest.drop count, offset := cursor.offset + count }

/-- The place after a token of some characters. -/
def consume (cursor : Cursor) (count : Nat) : Cursor :=
  { cursor with
    rest := cursor.rest.drop count
    offset := cursor.offset + count
    lastStop := cursor.offset + count }

end Cursor

/-- What the grammar can accept at a place. -/
structure Expected where
  newline : Bool := false
  indent : Bool := false
  dedent : Bool := false
  close : Bool := false
  quote : Bool := false
  handler : Bool := false
  field : Bool := false
deriving Repr

/-- What has been seen of the lines after a token, with the indentation of the first comment on a
line of its own. -/
structure LineScan where
  ended : Bool := false
  indent : Nat := 0
  comment : Option Nat := none
deriving Repr

namespace LineScan

/-- Reads white space, line breaks and, if `comments` is set, comments on lines of their own.
Gives up (`none`) at a comment that ends a line of code and at a stray backslash. -/
def run (comments : Bool) (inComment : Bool) (scan : LineScan) :
    Text → Option (LineScan × Text)
  | [] => some ({ scan with ended := true, indent := 0 }, [])
  | character :: rest =>
      if inComment then
        if character = '\n' then
          run comments false { scan with indent := 0 } rest
        else
          run comments true scan rest
      else if character = '\n' then
        run comments false { scan with ended := true, indent := 0 } rest
      else if character = ' ' then
        run comments false { scan with indent := scan.indent + 1 } rest
      else if character = '\r' ∨ character = '\x0c' then
        run comments false { scan with indent := 0 } rest
      else if character = '\t' then
        run comments false { scan with indent := scan.indent + 8 } rest
      else if character = '#' ∧ comments then
        if scan.ended then
          run comments true { scan with comment := scan.comment <|> some scan.indent } rest
        else
          none
      else if character = '\\' then
        match rest with
        | [] => run comments false scan []
        | '\n' :: after => run comments false scan after
        | '\r' :: '\n' :: after => run comments false scan after
        | ['\r'] => run comments false scan []
        | _ => none
      else
        some (scan, character :: rest)

end LineScan

inductive Layout where
  | newline
  | indent (width : Nat)
  | dedent
deriving DecidableEq, Repr

def startsWithQuote : Text → Bool
  | '"' :: _ | '\'' :: _ | '\x60' :: _ => true
  | _ => false

/-- The token of no width at a place, if there is one. A block also ends, whether the grammar
expects it or not, where a less deep line interrupts code that cannot be interrupted. -/
def Expected.layout? (expected : Expected) (cursor : Cursor) : Option Layout :=
  let comments := expected.indent || expected.dedent || expected.newline || expected.handler
  match LineScan.run comments false {} cursor.rest with
  | none => none
  | some (scan, rest) =>
      let interrupts :=
        !expected.newline && !(expected.quote && startsWithQuote rest) && !expected.close
      if !scan.ended then
        none
      else if expected.indent && cursor.indent < scan.indent then
        some (.indent scan.indent)
      else if (expected.dedent || interrupts) && scan.indent < cursor.indent && !expected.field &&
          scan.comment.all (· < cursor.indent) then
        some .dedent
      else if expected.newline then
        some .newline
      else
        none

end Inliner.Syntax
