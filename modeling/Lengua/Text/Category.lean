import Lengua.Text.Unassigned

/-!
# Character categories

Two of the Unicode general categories, as ranges of code points in ascending order: Other,
which holds control, format and private-use characters and all code points without a
character, and Separator. What is in neither leaves a mark: letters, accents, numbers,
punctuation and symbols.
-/

namespace Lengua.Text

/-- Whether a code lies in one of the ranges, which ascend and whose ends belong to them. -/
def inRanges (code : Nat) : List (Nat × Nat) → Bool
  | [] => false
  | (low, high) :: rest => low ≤ code && (code ≤ high || inRanges code rest)

/-- The assigned part of the category Other: control, format and private-use characters. -/
def otherRanges : List (Nat × Nat) :=
  [(0x0, 0x1F), (0x7F, 0x9F), (0xAD, 0xAD), (0x600, 0x605), (0x61C, 0x61C), (0x6DD, 0x6DD),
    (0x70F, 0x70F), (0x890, 0x891), (0x8E2, 0x8E2), (0x180E, 0x180E), (0x200B, 0x200F),
    (0x202A, 0x202E), (0x2060, 0x2064), (0x2066, 0x206F), (0xD800, 0xF8FF), (0xFEFF, 0xFEFF),
    (0xFFF9, 0xFFFB), (0x110BD, 0x110BD), (0x110CD, 0x110CD), (0x13430, 0x1343F),
    (0x1BCA0, 0x1BCA3), (0x1D173, 0x1D17A), (0xE0001, 0xE0001), (0xE0020, 0xE007F),
    (0xF0000, 0xFFFFD), (0x100000, 0x10FFFD)]

/-- The category Separator: spaces of every width, line and paragraph separators. -/
def separatorRanges : List (Nat × Nat) :=
  [(0x20, 0x20), (0xA0, 0xA0), (0x1680, 0x1680), (0x2000, 0x200A), (0x2028, 0x2029),
    (0x202F, 0x202F), (0x205F, 0x205F), (0x3000, 0x3000)]

/-- A code point without a character. -/
def isUnassigned (value : Char) : Bool := inRanges value.toNat unassignedRanges

/-- A control, format or private-use character, or no character at all. -/
def isOther (value : Char) : Bool := inRanges value.toNat otherRanges || isUnassigned value

/-- A space, line separator or paragraph separator. -/
def isSeparatorChar (value : Char) : Bool := inRanges value.toNat separatorRanges

/-- A character that leaves a mark, or the plain space. -/
def isMarked (value : Char) : Bool :=
  value.toNat == 0x20 || !(isOther value || isSeparatorChar value)

end Lengua.Text
