/-!
# Byte texts

Program sources, literals, messages and files are byte strings. They are usually
UTF-8, but nothing requires it: a stray byte is carried along unchanged, and the
length of a string in the language is its number of bytes. Words fixed by the
language enter through `utf8`, numbers through `Text.ofInt`.
-/

namespace Lengua

/-- A byte string: a source, a literal, a message or the content of a file. -/
abbrev Text := List UInt8

/-- The bytes of a fixed word. -/
def utf8 (word : String) : Text := word.toList.flatMap String.utf8EncodeChar

namespace Text

/-- Line feed, the only byte that ends a line. -/
def newline : UInt8 := 0x0A
/-- The space byte. -/
def space : UInt8 := 0x20
/-- The underscore byte. -/
def underscore : UInt8 := 0x5F
/-- The double quotation mark. -/
def doubleQuote : UInt8 := 0x22
/-- The single quotation mark. -/
def singleQuote : UInt8 := 0x27

/-- One of the ten decimal digits. -/
def isDigit (byte : UInt8) : Bool := 0x30 ≤ byte && byte ≤ 0x39

/-- An ASCII letter or the underscore. -/
def isLetter (byte : UInt8) : Bool :=
  (0x61 ≤ byte && byte ≤ 0x7A) || (0x41 ≤ byte && byte ≤ 0x5A) || byte == underscore

/-- The number of line feeds in a text. -/
def lineFeeds (text : Text) : Nat := text.count newline

/-- Decimal digits of a natural number, with no leading zero. -/
def ofNat (n : Nat) : Text := (Nat.toDigits 10 n).map fun digit => UInt8.ofNat digit.toNat

/-- Decimal form of an integer, with a minus sign only below zero. -/
def ofInt : Int → Text
  | .ofNat n => ofNat n
  | .negSucc n => 0x2D :: ofNat (n + 1)

/-- The parts in order, with the separator between neighbours. -/
def joined (separator : Text) (parts : List Text) : Text := separator.intercalate parts

/-- The part of a text before its first occurrence of a byte, and what follows that byte.
The second part is absent when the byte does not occur. -/
def cut (byte : UInt8) (text : Text) : Text × Option Text :=
  match text.dropWhile (· != byte) with
  | [] => (text, none)
  | _ :: after => (text.takeWhile (· != byte), some after)

/-- The pieces of a text between occurrences of a byte; `n` occurrences give `n + 1` pieces. -/
def splitOn (byte : UInt8) : Text → List Text
  | [] => [[]]
  | b :: rest =>
    if b == byte then [] :: splitOn byte rest
    else match splitOn byte rest with
      | [] => [[b]]
      | piece :: pieces => (b :: piece) :: pieces

end Text

end Lengua
