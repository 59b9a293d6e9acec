import Lengua.Text.Integer

/-!
# Decimal fractions

A decimal fraction is a sign, digits and a power of ten. Its binary value is the nearest
number with 53 significant bits, a tie going to the even one; `Decimal.wholePart?` is
the whole part of that value, and there is none for a fraction beyond the binary range.
-/

namespace Lengua.Console

open Text (isDigit signOf)

/-- A number in decimal notation: `digits` times ten to the `exponent`, possibly negative. -/
structure Decimal where
  /-- Whether it is below zero. -/
  negative : Bool
  /-- The digits as a number. -/
  digits : Nat
  /-- The power of ten that scales them. -/
  exponent : Int

namespace Decimal

/-- The quotient rounded to the nearest number, a tie going to the even one. -/
def roundedQuotient (numerator denominator : Nat) : Nat :=
  let quotient := numerator / denominator
  let twice := 2 * (numerator % denominator)
  if denominator < twice || (twice == denominator && quotient % 2 == 1) then quotient + 1
  else quotient

/-- The whole part of a quotient rounded to 53 significant bits. -/
def wholeOfQuotient (numerator denominator : Nat) : Nat :=
  let whole := numerator / denominator
  if whole < Nat.pow 2 53 then
    let scale := Nat.pow 2 (if whole = 0 then 53 else 52 - whole.log2)
    roundedQuotient (numerator * scale) denominator / scale
  else
    let unit := Nat.pow 2 (whole.log2 - 52)
    roundedQuotient numerator (denominator * unit) * unit

/-- The whole part of the binary value, without its sign. A number whose size is plain from its
exponent is not computed. -/
def wholePart? (decimal : Decimal) : Option Nat :=
  let size : Int := (Nat.toDigits 10 decimal.digits).length + decimal.exponent
  if decimal.digits = 0 ∨ size < -20 then some 0
  else if 400 < size then none
  else
    let whole := match decimal.exponent with
      | .ofNat power => wholeOfQuotient (decimal.digits * Nat.pow 10 power) 1
      | .negSucc power => wholeOfQuotient decimal.digits (Nat.pow 10 (power + 1))
    if whole < Nat.pow 2 1024 then some whole else none

/-- The digits of a text that holds nothing else. -/
def digitsOf? (text : Text) : Option Nat :=
  if text.all isDigit then
    some (text.foldl (fun value digit => value * 10 + (digit.toNat - 0x30)) 0)
  else none

/-- An exponent: nothing, or a mark, an optional sign and digits. -/
def exponentOf? : Text → Option Int
  | [] => some 0
  | mark :: rest =>
    if mark == 0x65 || mark == 0x45 then
      let (negative, digits) := signOf rest
      if digits.isEmpty then none
      else (digitsOf? digits).map fun value => if negative then -(value : Int) else value
    else none

/-- Reads a decimal fraction: an optional sign, one or more digits with at most one point before,
among or after them, and an optional exponent. -/
def ofText? (text : Text) : Option Decimal := do
  let (negative, magnitude) := signOf text
  let whole := magnitude.takeWhile isDigit
  let afterWhole := magnitude.dropWhile isDigit
  let (fraction, rest) := match afterWhole with
    | 0x2E :: after => (after.takeWhile isDigit, after.dropWhile isDigit)
    | other => ([], other)
  if whole.isEmpty && fraction.isEmpty then none
  else
    let digits ← digitsOf? (whole ++ fraction)
    let exponent ← exponentOf? rest
    some ⟨negative, digits, exponent - fraction.length⟩

end Decimal

end Lengua.Console
