import Inliner.Syntax.Layout
import Inliner.Text.Identifier

/-!
Tokens. Words are not sorted into keywords and identifiers here: a word is a keyword only where
the grammar has a use for that keyword.
-/

namespace Inliner.Syntax

/-- How a string literal is written: with one quotation mark or three, with backslashes that stand
for themselves, for bytes, with replacement fields. -/
structure StringStyle where
  closing : Char
  triple : Bool
  raw : Bool
  bytes : Bool
  format : Bool
deriving DecidableEq, Repr

inductive Token where
  | layout (layout : Layout)
  | word (text : String)
  | number
  | quote (style : StringStyle)
  | symbol (text : String)
  | endOfText
  | unknown
deriving DecidableEq, Repr

/-- A token with the place where it starts and the place after it. -/
structure Lexeme where
  token : Token
  before : Cursor
  after : Cursor
deriving Repr

namespace Lexeme

def start (lexeme : Lexeme) : Nat :=
  lexeme.before.offset

end Lexeme

/-! ## Numbers -/

/-- The length of a run of digits in which single underscores may follow digits. -/
def digitsLength : Text → Nat
  | [] => 0
  | [character] => if character.isDigit then 1 else 0
  | character :: '_' :: rest => if character.isDigit then 2 + digitsLength rest else 0
  | character :: rest => if character.isDigit then 1 + digitsLength rest else 0

/-- The length of a run of digits of a base in which single underscores may precede digits. -/
def baseDigitsLength (isDigit : Char → Bool) : Text → Nat
  | [] => 0
  | '_' :: character :: rest =>
      if isDigit character then 2 + baseDigitsLength isDigit rest else 0
  | character :: rest => if isDigit character then 1 + baseDigitsLength isDigit rest else 0

/-- The length of one of the given letters at the start of a text. -/
def suffixLength (letters : List Char) : Text → Nat
  | [] => 0
  | character :: _ => if character ∈ letters then 1 else 0

def exponentLength : Text → Nat
  | mark :: rest =>
      if mark ∈ ['e', 'E'] then
        let sign := suffixLength ['+', '-'] rest
        match digitsLength (rest.drop sign) with
        | 0 => 0
        | digits => 1 + sign + digits
      else
        0
  | [] => 0

/-- The length of a number with a base mark, after its leading zero; zero if there is none. -/
def basedLength : Text → Nat
  | mark :: rest =>
      let digits :=
        if mark ∈ ['x', 'X'] then
          baseDigitsLength (fun c => c.isDigit || ('a' ≤ c && c ≤ 'f') || ('A' ≤ c && c ≤ 'F')) rest
        else if mark ∈ ['o', 'O'] then
          baseDigitsLength (fun c => '0' ≤ c && c ≤ '7') rest
        else if mark ∈ ['b', 'B'] then
          baseDigitsLength (fun c => c = '0' || c = '1') rest
        else
          0
      match digits with
      | 0 => 0
      | _ => 1 + digits + suffixLength ['L', 'l'] (rest.drop digits)
  | [] => 0

/-- The length of a decimal number, whole or not; zero if there is none. -/
def decimalLength (text : Text) : Nat :=
  let whole := digitsLength text
  match text.drop whole with
  | '.' :: fraction =>
      let part := digitsLength fraction
      if whole = 0 ∧ part = 0 then
        0
      else
        let exponent := exponentLength (fraction.drop part)
        whole + 1 + part + exponent +
          suffixLength ['j', 'J'] (fraction.drop (part + exponent))
  | rest =>
      match exponentLength rest with
      | 0 => if whole = 0 then 0 else whole + suffixLength ['L', 'l', 'j', 'J'] rest
      | exponent => whole + exponent + suffixLength ['j', 'J'] (rest.drop exponent)

/-- The length of the number at the start of a text; zero if there is none. -/
def numberLength (text : Text) : Nat :=
  match text with
  | '0' :: rest =>
      match basedLength rest with
      | 0 => decimalLength text
      | based => 1 + based
  | character :: _ => if character.isDigit || character = '.' then decimalLength text else 0
  | [] => 0

/-! ## Strings -/

/-- Whether a letter may stand before the quotation mark of a string literal. -/
def isStringMark (character : Char) : Bool :=
  character ∈ ['f', 'F', 'r', 'R', 'b', 'B', 'u', 'U']

/-- The style of the string literal that starts a text, and the length of its opening. -/
def stringOpening? (text : Text) : Option (StringStyle × Nat) :=
  let marks := text.takeWhile isStringMark
  let style (closing : Char) (triple : Bool) : StringStyle :=
    ⟨closing, triple, marks.any (· ∈ ['r', 'R']), marks.any (· ∈ ['b', 'B']),
      marks.any (· ∈ ['f', 'F'])⟩
  match text.drop marks.length with
  | '"' :: '"' :: '"' :: _ => some (style '"' true, marks.length + 3)
  | '\'' :: '\'' :: '\'' :: _ => some (style '\'' true, marks.length + 3)
  | '"' :: _ => some (style '"' false, marks.length + 1)
  | '\'' :: _ => some (style '\'' false, marks.length + 1)
  | '\x60' :: _ => some (style '\x60' false, marks.length + 1)
  | _ => none

/-! ## Operators and delimiters -/

/-- The operators and delimiters, a longer one before its beginnings. -/
def symbols : List String :=
  ["...", "**=", "//=", ">>=", "<<=", "+=", "-=", "*=", "/=", "%=", "&=", "^=", "|=", "@=",
    "==", "!=", "<>", "<=", ">=", "->", ":=", "**", "//", "<<", ">>",
    "(", ")", "[", "]", "\x7b", "\x7d", ",", ":", ".", ";", "@", "=", "+", "-", "*", "/", "%",
    "&", "|", "^", "~", "<", ">"]

def symbolAt? (text : Text) : Option String :=
  symbols.find? fun symbol => symbol.toList.isPrefixOf text

/-! ## White space and tokens -/

/-- White space between tokens. -/
def isTrivia (character : Char) : Bool :=
  let code := character.toNat
  (9 ≤ code && code ≤ 13) || code == 32 || code == 0xFEFF || code == 0x2060 || code == 0x200B

/-- The length of a backslash that joins two lines; zero if there is none. -/
def joinLength : Text → Nat
  | '\\' :: '\n' :: _ => 2
  | '\\' :: '\r' :: '\n' :: _ => 3
  | ['\\'] => 1
  | _ => 0

/-- The token at the start of a text, where no white space is left to skip, and its length. -/
def tokenAt (quotes : Bool) (text : Text) : Token × Nat :=
  match text with
  | [] => (.endOfText, 0)
  | first :: _ =>
      match if quotes then stringOpening? text else none with
      | some (style, length) => (.quote style, length)
      | none =>
          if Text.startsIdentifier first then
            let word := text.takeWhile Text.continuesIdentifier
            (.word (String.ofList word), word.length)
          else
            match numberLength text with
            | 0 =>
                match symbolAt? text with
                | some symbol => (.symbol symbol, symbol.length)
                | none => (.unknown, 1)
            | length => (.number, length)

/-- The next token at a place. Comments and joined lines are skipped one by one, and lines and
indentation are looked at anew after each; `fuel` bounds their number. -/
def lexemeWithin (expected : Expected) : Nat → Cursor → Lexeme
  | 0, cursor => ⟨.endOfText, cursor, cursor⟩
  | fuel + 1, cursor =>
      match expected.layout? cursor with
      | some layout =>
          let indents :=
            match layout with
            | .newline => cursor.indents
            | .indent width => width :: cursor.indents
            | .dedent => cursor.indents.tail
          ⟨.layout layout, cursor, { cursor with indents := indents, lastStop := cursor.offset }⟩
      | none =>
          let place := cursor.skip (cursor.rest.takeWhile isTrivia).length
          match place.rest with
          | '#' :: _ =>
              lexemeWithin expected fuel (place.skip (place.rest.takeWhile (· ≠ '\n')).length)
          | _ =>
              match joinLength place.rest with
              | 0 =>
                  let (token, length) := tokenAt expected.quote place.rest
                  ⟨token, place, place.consume length⟩
              | length => lexemeWithin expected fuel (place.skip length)

def Expected.lexeme (expected : Expected) (cursor : Cursor) : Lexeme :=
  lexemeWithin expected (cursor.rest.length + 1) cursor

end Inliner.Syntax
