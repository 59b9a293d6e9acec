import Lengua.Text

/-!
# Dates and times of day

A moment is a date, or a date and a time of day. A year has four digits and the other
numbers one or two. A time of day follows the date after the letter T, and then a zone
follows it, or after spaces, and then none does. Seconds may have a fraction.
-/

namespace Lengua.Console

open Text (isDigit space)

/-- The value of a digit. -/
def digitOf (digit : UInt8) : Nat := digit.toNat - 0x30

/-- A number of one or two digits at the start of a text, and what follows it. -/
def shortNumber? : Text → Option (Nat × Text)
  | first :: second :: rest =>
    if !isDigit first then none
    else if isDigit second then some (digitOf first * 10 + digitOf second, rest)
    else some (digitOf first, second :: rest)
  | [digit] => if isDigit digit then some (digitOf digit, []) else none
  | [] => none

/-- What follows a byte at the start of a text. -/
def after? (byte : UInt8) : Text → Option Text
  | first :: rest => if first == byte then some rest else none
  | [] => none

/-- The number of days of a month. Every fourth year is a leap year, of the full centuries only
every fourth. -/
def daysIn (year month : Nat) : Nat :=
  if month = 2 then
    if year % 4 = 0 && (year % 100 != 0 || year % 400 = 0) then 29 else 28
  else if month = 4 || month = 6 || month = 9 || month = 11 then 30
  else 31

/-- What follows a date at the start of a text. -/
def afterDate? (text : Text) : Option Text := do
  let digits := text.takeWhile isDigit
  let year := digits.foldl (fun value digit => value * 10 + digitOf digit) 0
  let (month, afterMonth) ← shortNumber? (← after? 0x2D (text.dropWhile isDigit))
  let (day, rest) ← shortNumber? (← after? 0x2D afterMonth)
  if digits.length = 4 && 1 ≤ month && month ≤ 12 && 1 ≤ day && day ≤ daysIn year month then
    some rest
  else none

/-- What follows a fraction, if a text starts with one. A comma may stand for the point. -/
def afterFraction : Text → Text
  | point :: digit :: rest =>
    if (point == 0x2E || point == 0x2C) && isDigit digit then rest.dropWhile isDigit
    else point :: digit :: rest
  | text => text

/-- What follows a time of day at the start of a text. -/
def afterTime? (text : Text) : Option Text := do
  let (hour, afterHour) ← shortNumber? text
  let (minute, afterMinute) ← shortNumber? (← after? 0x3A afterHour)
  let (second, rest) ← shortNumber? (← after? 0x3A afterMinute)
  if hour < 24 && minute < 60 && second < 60 then some (afterFraction rest) else none

/-- Whether a text is a zone: the letter Z, or hours and minutes with a sign. A whole day and a
whole hour are allowed for. -/
def isZone : Text → Bool
  | [0x5A] => true
  | [sign, a, b, colon, c, d] =>
    (sign == 0x2B || sign == 0x2D) && colon == 0x3A && [a, b, c, d].all isDigit &&
      digitOf a * 10 + digitOf b ≤ 24 && digitOf c * 10 + digitOf d ≤ 60
  | _ => false

/-- Whether a text is a date, or a date and a time of day. -/
def isMoment (text : Text) : Bool :=
  match afterDate? text with
  | none => false
  | some [] => true
  | some (mark :: rest) =>
    if mark == 0x54 || mark == 0x74 then (afterTime? rest).any isZone
    else mark == space && (afterTime? (rest.dropWhile (· == space))).any List.isEmpty

end Lengua.Console
