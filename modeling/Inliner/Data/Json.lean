import Inliner.Data.Decimal
import Inliner.Data.Value
import Inliner.Text.Quoted

/-!
Values written as JSON over several lines, two spaces deeper for each level.
-/

namespace Inliner.Data

/-- A character as it stands in a JSON string. -/
def jsonChar (character : Char) : List Char :=
  match character with
  | '"' => ['\\', '"']
  | '\\' => ['\\', '\\']
  | '\n' => ['\\', 'n']
  | '\r' => ['\\', 'r']
  | '\t' => ['\\', 't']
  | '\x08' => ['\\', 'b']
  | '\x0c' => ['\\', 'f']
  | _ =>
      if character.toNat < 32 then
        let digits := Text.hexadecimal character.toNat
        ['\\', 'u'] ++ List.replicate (4 - digits.length) '0' ++ digits
      else
        [character]

def jsonString (text : String) : List Char :=
  '"' :: text.toList.flatMap jsonChar ++ ['"']

def jsonBreak (depth : Nat) : List Char :=
  '\n' :: List.replicate (2 * depth) ' '

namespace Value

mutual

def jsonAt (depth : Nat) : Value → List Char
  | .null => "null".toList
  | .boolean value => (if value then "true" else "false").toList
  | .integer value => (toString value).toList
  | .float value => (floatText value).toList
  | .string value => jsonString value
  | .array [] => "[]".toList
  | .array (item :: items) =>
      '[' :: jsonBreak (depth + 1) ++ jsonAt (depth + 1) item ++ jsonItems (depth + 1) items ++
        jsonBreak depth ++ [']']
  | .table [] => "\x7b\x7d".toList
  | .table ((key, value) :: fields) =>
      '\x7b' :: jsonBreak (depth + 1) ++ jsonString key ++ [':', ' '] ++
        jsonAt (depth + 1) value ++ jsonFields (depth + 1) fields ++ jsonBreak depth ++ ['\x7d']

def jsonItems (depth : Nat) : List Value → List Char
  | [] => []
  | item :: items => ',' :: jsonBreak depth ++ jsonAt depth item ++ jsonItems depth items

def jsonFields (depth : Nat) : List (String × Value) → List Char
  | [] => []
  | (key, value) :: fields =>
      ',' :: jsonBreak depth ++ jsonString key ++ [':', ' '] ++ jsonAt depth value ++
        jsonFields depth fields

end

/-- A value as JSON. -/
def toJson (value : Value) : List Char :=
  value.jsonAt 0

end Value

end Inliner.Data
