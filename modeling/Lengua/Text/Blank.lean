import Lengua.Text.Utf8

/-!
# White space

The characters with the Unicode property White_Space, and removal of them at both
ends of a text. A stray byte is never white space.
-/

namespace Lengua.Text

/-- The Unicode property White_Space. -/
def isBlankChar (value : Char) : Bool :=
  let code := value.toNat
  (0x09 ≤ code && code ≤ 0x0D) || code == 0x20 || code == 0x85 || code == 0xA0 ||
    code == 0x1680 || (0x2000 ≤ code && code ≤ 0x200A) || code == 0x2028 || code == 0x2029 ||
    code == 0x202F || code == 0x205F || code == 0x3000

/-- A piece of white space. -/
def Piece.isBlank : Piece → Bool
  | .char value => isBlankChar value
  | .stray _ => false

/-- A list without the elements at either end that satisfy a test. -/
def stripped {α : Type} (test : α → Bool) (items : List α) : List α :=
  ((items.dropWhile test).reverse.dropWhile test).reverse

/-- A text without the white space at its ends. -/
def trimmed (text : Text) : Text := (stripped Piece.isBlank text.pieces).flatMap Piece.bytes

end Lengua.Text
