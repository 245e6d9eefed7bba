import Inliner.Data.Value
import Inliner.Text.Basic

/-!
Strings, numbers and dates of the configuration language.
-/

namespace Inliner.Data.Toml

/-! ## Strings -/

/-- Whether a character may not stand in a text: all controls but the tab. -/
def isForbidden (character : Char) : Bool :=
  (character.toNat < 32 && character != '\t') || character.toNat == 127

def hexDigit? (character : Char) : Option Nat :=
  if '0' ≤ character ∧ character ≤ '9' then
    some (character.toNat - '0'.toNat)
  else if 'a' ≤ character ∧ character ≤ 'f' then
    some (character.toNat - 'a'.toNat + 10)
  else if 'A' ≤ character ∧ character ≤ 'F' then
    some (character.toNat - 'A'.toNat + 10)
  else
    none

def digitsValue? (base : Nat) (digits : Text) : Option Nat :=
  digits.foldlM (fun value digit => do
    let next ← hexDigit? digit
    if next < base then some (value * base + next) else none) 0

/-- The character whose code point is given by the first `count` hexadecimal digits of a text. -/
def codePoint? (count : Nat) (text : Text) : Option Char := do
  let digits := text.take count
  if digits.length < count then
    none
  else
    let code ← digitsValue? 16 digits
    if h : code.isValidChar then some (Char.ofNatAux code h) else none

/-- The character that an escape stands for, and the length of the escape after its backslash. -/
def escape? : Text → Option (Char × Nat)
  | 'b' :: _ => some ('\x08', 1)
  | 't' :: _ => some ('\t', 1)
  | 'n' :: _ => some ('\n', 1)
  | 'f' :: _ => some ('\x0c', 1)
  | 'r' :: _ => some ('\r', 1)
  | '"' :: _ => some ('"', 1)
  | '\\' :: _ => some ('\\', 1)
  | 'u' :: rest => (codePoint? 4 rest).map (·, 5)
  | 'U' :: rest => (codePoint? 8 rest).map (·, 9)
  | _ => none

def prepend (character : Char) (read : Text × Text) : Text × Text :=
  (character :: read.1, read.2)

/-- The rest of a string in double quotation marks, and what follows it. `skip` characters are
passed over first. -/
def basicBody (skip : Nat) : Text → Option (Text × Text)
  | [] => none
  | character :: rest =>
      match skip with
      | skip + 1 => basicBody skip rest
      | 0 =>
          if character = '"' then
            some ([], rest)
          else if character = '\\' then
            match escape? rest with
            | some (escaped, length) => (basicBody length rest).map (prepend escaped)
            | none => none
          else if isForbidden character then
            none
          else
            (basicBody 0 rest).map (prepend character)

def literalBody : Text → Option (Text × Text)
  | [] => none
  | character :: rest =>
      if character = '\'' then
        some ([], rest)
      else if isForbidden character then
        none
      else
        (literalBody rest).map (prepend character)

def quoteRun (mark : Char) (text : Text) : Nat :=
  ((text.take 5).takeWhile (· = mark)).length

/-- The length of a break after a backslash that joins lines: all white space from there on, if
nothing else is left on the line. -/
def joinedLength (text : Text) : Option Nat :=
  let gap := text.takeWhile fun character => character = ' ' ∨ character = '\t'
  match text.drop gap.length with
  | '\n' :: _ | '\r' :: '\n' :: _ =>
      some (text.takeWhile fun character => character ∈ [' ', '\t', '\n', '\r']).length
  | _ => none

/-- The rest of a string in three quotation marks, and what follows it. `skip` characters are
passed over first. Escapes count only in double quotation marks. -/
def multilineBody (mark : Char) (skip : Nat) : Text → Option (Text × Text)
  | [] => none
  | character :: rest =>
      match skip with
      | skip + 1 => multilineBody mark skip rest
      | 0 =>
          if character = mark ∧ quoteRun mark (character :: rest) ≥ 3 then
            let run := quoteRun mark (character :: rest)
            some (List.replicate (run - 3) mark, rest.drop (run - 1))
          else if mark = '"' ∧ character = '\\' then
            match joinedLength rest with
            | some length => multilineBody mark length rest
            | none =>
                match escape? rest with
                | some (escaped, length) => (multilineBody mark length rest).map (prepend escaped)
                | none => none
          else if character = '\n' then
            (multilineBody mark 0 rest).map (prepend '\n')
          else if character = '\r' then
            if rest.head? = some '\n' then
              (multilineBody mark 1 rest).map (prepend '\n')
            else
              none
          else if isForbidden character then
            none
          else
            (multilineBody mark 0 rest).map (prepend character)

def withoutBreak : Text → Text
  | '\n' :: rest => rest
  | '\r' :: '\n' :: rest => rest
  | text => text

/-- The string at the start of a text, and what follows it. -/
def string? : Text → Option (Text × Text)
  | '"' :: '"' :: '"' :: rest => multilineBody '"' 0 (withoutBreak rest)
  | '\'' :: '\'' :: '\'' :: rest => multilineBody '\'' 0 (withoutBreak rest)
  | '"' :: rest => basicBody 0 rest
  | '\'' :: rest => literalBody rest
  | _ => none

/-! ## Numbers -/

/-- Digits without the single underscores between them. -/
def plainDigits? (isDigit : Char → Bool) : Text → Option Text
  | [] => none
  | [digit] => if isDigit digit then some [digit] else none
  | digit :: '_' :: rest =>
      if isDigit digit then (plainDigits? isDigit rest).map (digit :: ·) else none
  | digit :: rest =>
      if isDigit digit then (plainDigits? isDigit rest).map (digit :: ·) else none

def splitSign : Text → Bool × Text
  | '-' :: rest => (true, rest)
  | '+' :: rest => (false, rest)
  | text => (false, text)

/-- Decimal digits without a leading zero. -/
def wholeDigits? (text : Text) : Option Text := do
  let digits ← plainDigits? Char.isDigit text
  if digits.head? = some '0' ∧ digits.length > 1 then none else some digits

/-- A whole number that fits in 64 bits. -/
def fitting? (value : Int) : Option Value :=
  if -9223372036854775808 ≤ value ∧ value ≤ 9223372036854775807 then
    some (.integer value)
  else
    none

def integer? (text : Text) : Option Value :=
  match text with
  | '0' :: 'x' :: digits => do
      let plain ← plainDigits? (fun digit => (hexDigit? digit).isSome) digits
      fitting? (Int.ofNat (← digitsValue? 16 plain))
  | '0' :: 'o' :: digits => do
      let plain ← plainDigits? Char.isDigit digits
      fitting? (Int.ofNat (← digitsValue? 8 plain))
  | '0' :: 'b' :: digits => do
      let plain ← plainDigits? Char.isDigit digits
      fitting? (Int.ofNat (← digitsValue? 2 plain))
  | _ => do
      let (negative, rest) := splitSign text
      let value ← digitsValue? 10 (← wholeDigits? rest)
      fitting? (if negative then -Int.ofNat value else Int.ofNat value)

def exponent? (text : Text) : Option Int := do
  let (negative, rest) := splitSign text
  let value ← digitsValue? 10 (← plainDigits? Char.isDigit rest)
  return if negative then -Int.ofNat value else Int.ofNat value

def scaledFloat (negative : Bool) (digits : Nat) (exponent : Int) : Value :=
  let size := Float.ofScientific digits (exponent < 0) exponent.natAbs
  .float (if negative then -size else size)

def float? (text : Text) : Option Value := do
  let (negative, rest) := splitSign text
  if rest = "inf".toList then
    return .float (if negative then -(1.0 / 0.0) else 1.0 / 0.0)
  else if rest = "nan".toList then
    return .float (0.0 / 0.0)
  else
    let isMark (character : Char) : Bool := character = 'e' || character = 'E'
    let number := rest.takeWhile (!isMark ·)
    let exponent ←
      match rest.drop number.length with
      | [] => some none
      | _ :: written => (exponent? written).map some
    let whole := number.takeWhile (· ≠ '.')
    let wholePart ← wholeDigits? whole
    match number.drop whole.length, exponent with
    | [], none => none
    | [], some power => return scaledFloat negative (← digitsValue? 10 wholePart) power
    | _ :: fraction, power => do
        let part ← plainDigits? Char.isDigit fraction
        return scaledFloat negative (← digitsValue? 10 (wholePart ++ part))
          (power.getD 0 - Int.ofNat part.length)

/-! ## Dates and times -/

def digitsWithin? (count low high : Nat) (text : Text) : Option Text := do
  let digits := text.take count
  if digits.length < count || !digits.all Char.isDigit then
    none
  else
    let value ← digitsValue? 10 digits
    if low ≤ value ∧ value ≤ high then some (text.drop count) else none

def after? (character : Char) : Text → Option Text
  | first :: rest => if first = character then some rest else none
  | [] => none

def daysIn (year month : Nat) : Nat :=
  match month with
  | 2 => if year % 4 = 0 ∧ (year % 100 ≠ 0 ∨ year % 400 = 0) then 29 else 28
  | 4 | 6 | 9 | 11 => 30
  | _ => 31

def date? (text : Text) : Option Text := do
  let month ← after? '-' (← digitsWithin? 4 0 9999 text)
  let day ← after? '-' (← digitsWithin? 2 1 12 month)
  let yearNumber ← digitsValue? 10 (text.take 4)
  let monthNumber ← digitsValue? 10 (month.take 2)
  digitsWithin? 2 1 (daysIn yearNumber monthNumber) day

def time? (text : Text) : Option Text := do
  let minute ← after? ':' (← digitsWithin? 2 0 23 text)
  let second ← after? ':' (← digitsWithin? 2 0 59 minute)
  let rest ← digitsWithin? 2 0 60 second
  match rest with
  | '.' :: fraction =>
      let digits := fraction.takeWhile Char.isDigit
      if digits = [] then none else some (fraction.drop digits.length)
  | _ => some rest

def isOffset (text : Text) : Bool :=
  match text with
  | [] | ['Z'] | ['z'] => true
  | sign :: rest =>
      (sign == '+' || sign == '-') &&
        ((do
          let minute ← after? ':' (← digitsWithin? 2 0 23 rest)
          digitsWithin? 2 0 59 minute) == some [])

def isDateTime (text : Text) : Bool :=
  match date? text with
  | some [] => true
  | some (separator :: rest) =>
      (separator == 'T' || separator == 't' || separator == ' ') &&
        ((time? rest).map isOffset == some true)
  | none => time? text == some []

/-- The value that a date or time stands for: a table with one key of its own. -/
def dateTime? (text : Text) : Option Value :=
  if isDateTime text then
    some (.table [("$__toml_private_datetime", .string (String.ofList text))])
  else
    none

/-! ## Words -/

def isWordChar (character : Char) : Bool :=
  character.isAlphanum || character ∈ ['+', '-', '.', '_', ':']

def wordAt (text : Text) : Text :=
  let word := text.takeWhile isWordChar
  match date? word, text.drop word.length with
  | some [], ' ' :: rest =>
      let time := rest.takeWhile isWordChar
      if (time.head?.any Char.isDigit) then word ++ ' ' :: time else word
  | _, _ => word

def wordValue? (word : Text) : Option Value :=
  if word = "true".toList then
    some (.boolean true)
  else if word = "false".toList then
    some (.boolean false)
  else
    integer? word <|> float? word <|> dateTime? word

end Inliner.Data.Toml
