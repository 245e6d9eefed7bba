import Inliner.Text.EscapeTable

/-!
Texts in double quotes, as messages show them.
-/

namespace Inliner.Text

def hexadecimal (number : Nat) : List Char :=
  Nat.toDigits 16 number

/-- Whether a quoted text shows a character by its code point. -/
def isEscaped (character : Char) : Bool :=
  if character.toNat < 128 then
    character.toNat < 32 || character.toNat == 127
  else
    escapedRanges.contains character

def quoteChar (character : Char) : List Char :=
  match character with
  | '\x00' => ['\\', '0']
  | '\t' => ['\\', 't']
  | '\n' => ['\\', 'n']
  | '\r' => ['\\', 'r']
  | '"' => ['\\', '"']
  | '\\' => ['\\', '\\']
  | _ =>
      if isEscaped character then
        ['\\', 'u', '\x7b'] ++ hexadecimal character.toNat ++ ['\x7d']
      else
        [character]

/-- A text in double quotes with its special characters escaped. -/
def quoted (text : String) : String :=
  "\"" ++ String.ofList (text.toList.flatMap quoteChar) ++ "\""

end Inliner.Text
