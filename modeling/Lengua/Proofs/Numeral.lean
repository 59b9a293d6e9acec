import Lengua.Text.Integer

/-!
# Decimal numerals

Writing an integer and reading it back. The digits of a natural number are read to it as
long as it fits; a numeral of digits alone has no sign, so that it is never negative, and
an integer that is not negative is read back from its decimal form. A general numeral may
announce another base by a leading zero, but the decimal form of no number but zero begins
with one, so every integer of 64 bits is read back from its decimal form as a general
numeral too.
-/

namespace Lengua.Text

/-- Further digits do not make a number smaller. -/
theorem le_ofDigitChars (digits : List Char) (value : Nat) :
    value ≤ Nat.ofDigitChars 10 digits value := by
  induction digits generalizing value with
  | nil => exact Nat.le_of_eq Nat.ofDigitChars_nil.symm
  | cons digit digits ih =>
    have rest := ih (10 * value + (digit.toNat - '0'.toNat))
    rw [Nat.ofDigitChars_cons]
    omega

/-- The byte of a digit. -/
theorem byte_of_digit {digit : Char} (decimal : digit.isDigit) :
    isDigit (UInt8.ofNat digit.toNat) = true ∧
      (UInt8.ofNat digit.toNat).toNat - 0x30 = digit.toNat - '0'.toNat ∧
      digit.toNat - '0'.toNat < 10 := by
  have ⟨low, high⟩ : 48 ≤ digit.toNat ∧ digit.toNat ≤ 57 := by
    simpa [Char.isDigit, UInt32.le_iff_toNat_le] using decimal
  have small : digit.toNat % 256 = digit.toNat := Nat.mod_eq_of_lt (by omega)
  have zero : '0'.toNat = 48 := rfl
  refine ⟨?_, ?_, ?_⟩
  · simp only [isDigit, UInt8.le_iff_toNat_le, Bool.and_eq_true, decide_eq_true_eq,
      UInt8.toNat_ofNat', small]
    exact ⟨low, high⟩
  · rw [UInt8.toNat_ofNat', small, zero]
  · omega

/-- Digits are read to the number they stand for, as long as it fits. -/
theorem digitsFrom_digits (grouped : Bool) (digits : List Char)
    (decimal : ∀ digit ∈ digits, digit.isDigit) (value : Nat)
    (fits : Nat.ofDigitChars 10 digits value < unsignedLimit) :
    digitsFrom 10 grouped value (digits.map fun digit => UInt8.ofNat digit.toNat) =
      .ok (Nat.ofDigitChars 10 digits value) := by
  induction digits generalizing value with
  | nil => simp [digitsFrom]
  | cons digit digits ih =>
    obtain ⟨isDigit, reads, small⟩ := byte_of_digit (decimal digit List.mem_cons_self)
    rw [Nat.ofDigitChars_cons] at fits ⊢
    have room : value * 10 + (digit.toNat - '0'.toNat) < unsignedLimit := by
      have less := le_ofDigitChars digits (10 * value + (digit.toNat - '0'.toNat))
      omega
    have rest := ih (fun other member => decimal other (List.mem_cons_of_mem digit member)) _ fits
    have noUnderscore : (UInt8.ofNat digit.toNat == underscore) = false := by
      rw [beq_eq_false_iff_ne]
      intro same
      rw [same] at isDigit
      exact absurd isDigit (by decide)
    rw [List.map_cons, digitsFrom]
    simp only [noUnderscore, Bool.and_false, Bool.false_eq_true, if_false, digitValue?, isDigit,
      if_true, reads]
    rw [if_neg (Nat.not_le.mpr small), if_neg (Nat.not_le.mpr room), Nat.mul_comm value 10]
    exact rest

/-- The digits of a number are decimal digits, and there is at least one. -/
theorem ofNat_digits (value : Nat) : ofNat value ≠ [] ∧ ∀ byte ∈ ofNat value, isDigit byte := by
  constructor
  · simp [ofNat]
  · intro byte member
    obtain ⟨digit, digits, rfl⟩ := List.mem_map.mp member
    exact (byte_of_digit (Nat.isDigit_of_mem_toDigits (by decide) (by decide) digits)).1

/-- The digits of a number begin with zero only if it is zero. -/
theorem head_ofNat {value : Nat} (positive : 0 < value) : (ofNat value).head? ≠ some 0x30 := by
  induction value using Nat.strongRecOn with
  | _ value ih =>
    unfold ofNat
    by_cases small : value < 10
    · rw [Nat.toDigits_of_lt_base small]
      have first : ∀ digit < 10, 0 < digit →
          ([Nat.digitChar digit].map fun char => UInt8.ofNat char.toNat).head? ≠ some 0x30 := by
        decide
      exact first value small positive
    · have shorter := ih (value / 10) (by omega) (by omega)
      obtain ⟨first, others, begins⟩ := List.exists_cons_of_ne_nil (ofNat_digits (value / 10)).1
      rw [begins] at shorter
      rw [Nat.toDigits_of_base_le (by decide) (by omega), List.map_append]
      rw [ofNat] at begins
      rw [begins, List.cons_append]
      exact shorter

/-- A numeral that does not begin with zero announces no base. -/
theorem announcedBase_of_head {text : Text} (head : text.head? ≠ some 0x30) :
    announcedBase text = (10, text) := by
  unfold announcedBase
  split
  · exact absurd rfl head
  · exact absurd rfl head
  · rfl

/-- The digits of a number that fits are read back to it. -/
theorem readUnsigned_ofNat (general : Bool) (value : Nat) (fits : value < unsignedLimit) :
    readUnsigned general (ofNat value) = .ok value := by
  have digits : ∀ digit ∈ Nat.toDigits 10 value, digit.isDigit := fun _ member =>
    Nat.isDigit_of_mem_toDigits (by decide) (by decide) member
  have read (grouped : Bool) := digitsFrom_digits grouped (Nat.toDigits 10 value) digits 0
  rw [Nat.ofDigitChars_ten_toDigits] at read
  have some : (ofNat value).isEmpty = false := by
    rw [List.isEmpty_eq_false_iff]
    exact (ofNat_digits value).1
  rw [readUnsigned, some]
  cases general with
  | false => exact read false fits
  | true =>
    rcases Nat.eq_zero_or_pos value with rfl | positive
    · rfl
    have noUnderscore : (ofNat value).contains underscore = false := by
      rw [List.contains_eq_mem, decide_eq_false_iff_not]
      intro member
      exact absurd ((ofNat_digits value).2 underscore member) (by decide)
    rw [announcedBase_of_head (head_ofNat positive)]
    have same : digitsFrom 10 true 0 (ofNat value) = .ok value := read true fits
    simp only [same, noUnderscore, Bool.false_and, Bool.false_eq_true, if_false, if_true]

/-- A text that begins with a digit has no sign. -/
theorem signOf_digits {text : Text} (digits : ∀ byte ∈ text, isDigit byte) :
    signOf text = (false, text) := by
  unfold signOf
  split
  · exact absurd (digits 0x2B List.mem_cons_self) (by decide)
  · exact absurd (digits 0x2D List.mem_cons_self) (by decide)
  · rfl

/-- An integer that is not negative is read back from its decimal form. -/
theorem plainInteger_ofInt {value : Int64} (positive : 0 ≤ value.toInt) :
    plainInteger? (ofInt value.toInt) = some value := by
  obtain ⟨magnitude, same⟩ := Int.eq_ofNat_of_zero_le positive
  have below := value.toInt_lt
  have small : magnitude < signedLimit := by
    rw [same] at below
    unfold signedLimit
    omega
  have limits : signedLimit < unsignedLimit := by decide
  have form : ofInt value.toInt = ofNat magnitude := by rw [same]; rfl
  rw [plainInteger?, form, readSigned, signOf_digits (ofNat_digits magnitude).2]
  dsimp only
  rw [readUnsigned_ofNat false magnitude (Nat.lt_trans small limits)]
  dsimp only
  rw [withSign, if_neg Bool.false_ne_true, if_neg (Nat.not_le.mpr small)]
  dsimp only
  have back : Int64.ofInt (magnitude : Int) = value := by
    rw [← same]
    exact Int64.ofInt_toInt value
  rw [back]

/-- An integer of 64 bits is read back from its decimal form as a general numeral. -/
theorem readSigned_ofInt (value : Int64) : readSigned true (ofInt value.toInt) = .ok value.toInt := by
  have low := value.le_toInt
  have high := value.toInt_lt
  have limits : signedLimit = 2 ^ 63 ∧ unsignedLimit = 2 ^ 64 := by decide
  cases form : value.toInt with
  | ofNat magnitude =>
    rw [form, Int.ofNat_eq_natCast] at high
    rw [ofInt, readSigned, signOf_digits (ofNat_digits magnitude).2]
    dsimp only
    rw [readUnsigned_ofNat true magnitude (by omega)]
    dsimp only
    rw [withSign, if_neg Bool.false_ne_true, if_neg (by omega)]
    rfl
  | negSucc less =>
    rw [form] at low
    rw [ofInt, readSigned, signOf]
    dsimp only
    rw [readUnsigned_ofNat true (less + 1) (by omega)]
    dsimp only
    rw [withSign, if_pos rfl, if_neg (by omega)]
    rfl

/-- A numeral of digits alone is not negative. -/
theorem nonneg_of_plainInteger {text : Text} (digits : ∀ byte ∈ text, isDigit byte)
    {value : Int64} (read : plainInteger? text = some value) : 0 ≤ value.toInt := by
  rw [plainInteger?, readSigned, signOf_digits digits] at read
  dsimp only at read
  cases unsigned : readUnsigned false text with
  | error fault => simp [unsigned] at read
  | ok magnitude =>
    simp only [unsigned, withSign, Bool.false_eq_true, if_false] at read
    by_cases small : signedLimit ≤ magnitude
    · simp [small] at read
    · simp only [small, if_false, Option.some.injEq] at read
      have below : (magnitude : Int) < 2 ^ 63 := by
        unfold signedLimit at small
        omega
      rw [← read, Int64.toInt_ofInt_of_le (by omega) below]
      omega

end Lengua.Text
