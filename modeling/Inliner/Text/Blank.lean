import Inliner.Text.Basic

/-!
White space, as the Unicode property `White_Space` has it, and the texts made of nothing else.
-/

namespace Inliner.Text

def isSpace (character : Char) : Bool :=
  let code := character.toNat
  (9 ≤ code && code ≤ 13) || code == 0x20 || code == 0x85 || code == 0xA0 || code == 0x1680 ||
    (0x2000 ≤ code && code ≤ 0x200A) || code == 0x2028 || code == 0x2029 || code == 0x202F ||
    code == 0x205F || code == 0x3000

/-- Whether a text holds nothing but white space. -/
def isBlank (text : Text) : Bool :=
  text.all isSpace

def trimEnd (text : Text) : Text :=
  (text.reverse.dropWhile isSpace).reverse

def trim (text : Text) : Text :=
  trimEnd (text.dropWhile isSpace)

end Inliner.Text
