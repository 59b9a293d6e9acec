import Lengua.Text.Category
import Lengua.Text.Utf8

/-!
# Quoted texts

A text between double quotation marks, in which every byte can be told from the
written form: letters and signs stand for themselves, everything that would not
show is escaped, and a stray byte is written as two hexadecimal digits.
-/

namespace Lengua.Text

/-- Lower-case hexadecimal digits of a number, padded with zeros to a width. -/
def hexadecimal (width n : Nat) : Text :=
  let digits := (Nat.toDigits 16 n).map fun digit => UInt8.ofNat digit.toNat
  List.replicate (width - digits.length) 0x30 ++ digits

/-- The short escapes of control characters. -/
def shortEscape? (code : Nat) : Option Char :=
  match code with
  | 0x07 => some 'a'
  | 0x08 => some 'b'
  | 0x09 => some 't'
  | 0x0A => some 'n'
  | 0x0B => some 'v'
  | 0x0C => some 'f'
  | 0x0D => some 'r'
  | _ => none

/-- The written form of one character inside quotation marks. -/
def quotedChar (value : Char) : Text :=
  let code := value.toNat
  if code == 0x22 || code == 0x5C then 0x5C :: String.utf8EncodeChar value
  else if isMarked value then String.utf8EncodeChar value
  else match shortEscape? code with
    | some letter => 0x5C :: String.utf8EncodeChar letter
    | none =>
      if code < 0x80 then utf8 "\\x" ++ hexadecimal 2 code
      else if code < 0x10000 then utf8 "\\u" ++ hexadecimal 4 code
      else utf8 "\\U" ++ hexadecimal 8 code

/-- The written form of one piece inside quotation marks. -/
def Piece.quoted : Piece → Text
  | .char value => quotedChar value
  | .stray byte => utf8 "\\x" ++ hexadecimal 2 byte.toNat

/-- A text between double quotation marks, with escapes. -/
def quoted (text : Text) : Text := doubleQuote :: text.pieces.flatMap Piece.quoted ++ [doubleQuote]

end Lengua.Text
