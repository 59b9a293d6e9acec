import Lengua.Text

/-!
# Integers in text

Two written forms of 64-bit integers are read. A plain numeral is an optional sign
and decimal digits. A general numeral also takes a base from its first characters
(`0x`, `0o`, `0b`, or a leading `0` for octal) and lets a single underscore stand
between digits. A numeral too large for 64 bits is told apart from one that is
malformed, and the first fault met from the left is the one reported.
-/

namespace Lengua.Text

/-- Why a numeral gives no integer. -/
inductive NumeralFault where
  /-- The text is not a numeral. -/
  | malformed
  /-- The numeral is well formed so far and its value needs more than 64 bits. -/
  | outOfRange

/-- The number of non-negative values of a signed 64-bit integer, and of negative ones. -/
def signedLimit : Nat := 0x8000000000000000
/-- The number of values of an unsigned 64-bit integer. -/
def unsignedLimit : Nat := 0x10000000000000000

/-- The value of a digit below 36, letters counting from ten in either case. -/
def digitValue? (byte : UInt8) : Option Nat :=
  if isDigit byte then some (byte.toNat - 0x30)
  else if 0x61 ≤ byte && byte ≤ 0x7A then some (byte.toNat - 0x61 + 10)
  else if 0x41 ≤ byte && byte ≤ 0x5A then some (byte.toNat - 0x41 + 10)
  else none

/-- Appends digits of a base to a value, stopping at the first fault. An underscore is passed
over when `grouped` is set. -/
def digitsFrom (base : Nat) (grouped : Bool) (value : Nat) : Text → Except NumeralFault Nat
  | [] => .ok value
  | byte :: rest =>
    if grouped && byte == underscore then digitsFrom base grouped value rest
    else match digitValue? byte with
      | none => .error .malformed
      | some digit =>
        if base ≤ digit then .error .malformed
        else if unsignedLimit ≤ value * base + digit then .error .outOfRange
        else digitsFrom base grouped (value * base + digit) rest

/-- A byte that selects a base when it follows a leading zero. -/
def baseLetter? (byte : UInt8) : Option Nat :=
  if byte == 0x62 || byte == 0x42 then some 2
  else if byte == 0x6F || byte == 0x4F then some 8
  else if byte == 0x78 || byte == 0x58 then some 16
  else none

/-- The base a numeral announces and the digits that follow the announcement. -/
def announcedBase : Text → Nat × Text
  | 0x30 :: letter :: digit :: rest =>
    match baseLetter? letter with
    | some base => (base, digit :: rest)
    | none => (8, letter :: digit :: rest)
  | 0x30 :: rest => (8, rest)
  | digits => (10, digits)

/-- Whether every underscore stands between two digits, given whether a digit stands just
before. Letters count as digits only in base sixteen. -/
def groupedFrom (base : Nat) (afterDigit afterUnderscore : Bool) : Text → Bool
  | [] => !afterUnderscore
  | byte :: rest =>
    if isDigit byte || (base == 16 && (digitValue? byte).any (· < 16)) then
      groupedFrom base true false rest
    else if byte == underscore then afterDigit && groupedFrom base false true rest
    else !afterUnderscore && groupedFrom base false false rest

/-- Whether the underscores of an unsigned numeral separate digits. A base letter counts as a
digit before them. -/
def wellGrouped : Text → Bool
  | 0x30 :: letter :: rest =>
    match baseLetter? letter with
    | some base => groupedFrom base true false rest
    | none => groupedFrom 10 false false (0x30 :: letter :: rest)
  | digits => groupedFrom 10 false false digits

/-- Reads an unsigned 64-bit numeral, in any announced base when `general` is set. -/
def readUnsigned (general : Bool) (text : Text) : Except NumeralFault Nat :=
  if text.isEmpty then .error .malformed
  else if general then
    let (base, digits) := announcedBase text
    match digitsFrom base true 0 digits with
    | .error fault => .error fault
    | .ok value =>
      if digits.contains underscore && !wellGrouped text then .error .malformed else .ok value
  else digitsFrom 10 false 0 text

/-- The sign of a numeral and the rest of it. -/
def signOf : Text → Bool × Text
  | 0x2B :: rest => (false, rest)
  | 0x2D :: rest => (true, rest)
  | text => (false, text)

/-- The integer with a sign and a magnitude, if it has 64 bits. -/
def withSign (negative : Bool) (magnitude : Nat) : Except NumeralFault Int :=
  if negative then
    if signedLimit < magnitude then .error .outOfRange else .ok (-(magnitude : Int))
  else if signedLimit ≤ magnitude then .error .outOfRange else .ok magnitude

/-- Reads a signed 64-bit numeral, in any announced base when `general` is set. -/
def readSigned (general : Bool) (text : Text) : Except NumeralFault Int :=
  let (negative, magnitude) := signOf text
  match readUnsigned general magnitude with
  | .error fault => .error fault
  | .ok value => withSign negative value

/-- Reads a signed 64-bit numeral of digits in a given base. -/
def readSignedIn (base : Nat) (text : Text) : Except NumeralFault Int :=
  let (negative, magnitude) := signOf text
  if magnitude.isEmpty then .error .malformed
  else match digitsFrom base false 0 magnitude with
    | .error fault => .error fault
    | .ok value => withSign negative value

/-- The 64-bit integer a plain decimal numeral stands for. -/
def plainInteger? (text : Text) : Option Int64 :=
  match readSigned false text with
  | .ok value => some (Int64.ofInt value)
  | .error _ => none

end Lengua.Text
