import Lengua.Text

/-!
# Characters of a byte text

A text is read as a sequence of pieces, each a well-formed UTF-8 character or a
single byte that starts none. Well formed means the shortest encoding of a Unicode
scalar value: surrogates, overlong forms and values past U+10FFFF are stray bytes.
-/

namespace Lengua.Text

/-- The six payload bits of a continuation byte. -/
def payload? (byte : UInt8) : Option Nat :=
  if 0x80 ≤ byte && byte < 0xC0 then some (byte.toNat - 0x80) else none

/-- The character with this code, unless a shorter encoding exists or it is no scalar value. -/
def scalar? (least code : Nat) : Option Char :=
  if h : code.isValidChar then
    if least ≤ code then some (Char.ofNatAux code h) else none
  else none

/-- The well-formed character a text starts with and the number of its bytes. -/
def character? : Text → Option (Char × Nat)
  | [] => none
  | lead :: rest =>
    if lead < 0x80 then (scalar? 0 lead.toNat).map (·, 1)
    else if lead < 0xC0 then none
    else if lead < 0xE0 then
      match rest with
      | b :: _ => do
        let low ← payload? b
        (scalar? 0x80 ((lead.toNat - 0xC0) * 0x40 + low)).map (·, 2)
      | _ => none
    else if lead < 0xF0 then
      match rest with
      | b :: c :: _ => do
        let mid ← payload? b
        let low ← payload? c
        (scalar? 0x800 (((lead.toNat - 0xE0) * 0x40 + mid) * 0x40 + low)).map (·, 3)
      | _ => none
    else
      match rest with
      | b :: c :: d :: _ => do
        let high ← payload? b
        let mid ← payload? c
        let low ← payload? d
        (scalar? 0x10000
          ((((lead.toNat - 0xF0) * 0x40 + high) * 0x40 + mid) * 0x40 + low)).map (·, 4)
      | _ => none

/-- The number of bytes of the first piece: those of a character, or one stray byte. -/
def pieceWidth (text : Text) : Nat :=
  match character? text with
  | some (_, width) => width
  | none => 1

/-- A piece has at least one byte. -/
theorem pieceWidth_pos (text : Text) : 0 < pieceWidth text := by
  unfold pieceWidth
  split
  case h_2 => exact Nat.one_pos
  case h_1 value width found =>
    unfold character? at found
    repeat' split at found
    all_goals
      simp only [Option.map_eq_some_iff, Option.bind_eq_bind, Option.bind_eq_some_iff,
        Prod.mk.injEq, reduceCtorEq] at found
    all_goals grind

/-- A character of a text, or a byte that starts no well-formed character. -/
inductive Piece where
  /-- A well-formed character. -/
  | char (value : Char)
  /-- A byte on its own. -/
  | stray (byte : UInt8)

/-- The bytes a piece stands for. -/
def Piece.bytes : Piece → Text
  | .char value => String.utf8EncodeChar value
  | .stray byte => [byte]

/-- The pieces of a text whose first `skip` bytes belong to a piece already read. -/
def piecesAfter : Nat → Text → List Piece
  | _, [] => []
  | skip + 1, _ :: rest => piecesAfter skip rest
  | 0, byte :: rest =>
    match character? (byte :: rest) with
    | some (value, width) => .char value :: piecesAfter (width - 1) rest
    | none => .stray byte :: piecesAfter 0 rest

/-- The pieces of a text in order. -/
def pieces (text : Text) : List Piece := piecesAfter 0 text

/-- A text is well-formed UTF-8 when it has no stray byte. -/
def isUtf8 (text : Text) : Bool :=
  text.pieces.all fun
    | .char _ => true
    | .stray _ => false

end Lengua.Text
