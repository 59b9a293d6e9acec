import Lengua.Text.Utf8

/-!
# Characters and their encodings

The character at the front of a text is read from the bytes that encode it and from nothing
else: `Text.character?` finds a character exactly where the text begins with its UTF-8
encoding, and counts the bytes of that encoding. So a stray byte is one where no encoding
begins.
-/

namespace Lengua.Text

/-- A character has a given code if it is read from a code at or above the least one. -/
theorem scalar_eq_some_iff {least code : Nat} {value : Char} :
    scalar? least code = some value ↔ least ≤ code ∧ value.val.toNat = code := by
  unfold scalar?
  by_cases valid : code.isValidChar
  · rw [dif_pos valid]
    have coded : (Char.ofNatAux code valid).val.toNat = code := rfl
    constructor
    · intro found
      by_cases low : least ≤ code
      · rw [if_pos low] at found
        obtain rfl := Option.some.inj found
        exact ⟨low, coded⟩
      · rw [if_neg low] at found
        cases found
    · rintro ⟨low, same⟩
      rw [if_pos low]
      congr 1
      apply Char.ext
      apply UInt32.toNat_inj.mp
      rw [coded, same]
  · rw [dif_neg valid]
    constructor
    · intro found
      cases found
    · rintro ⟨-, rfl⟩
      exact absurd value.valid valid

/-- A continuation byte carries six bits. -/
theorem payload_eq_some_iff {byte : UInt8} {bits : Nat} :
    payload? byte = some bits ↔ bits < 0x40 ∧ byte.toNat = bits + 0x80 := by
  have low : (0x80 : UInt8) ≤ byte ↔ 0x80 ≤ byte.toNat := UInt8.le_iff_toNat_le
  have high : byte < (0xC0 : UInt8) ↔ byte.toNat < 0xC0 := UInt8.lt_iff_toNat_lt
  unfold payload?
  split
  · next inside =>
    simp only [Bool.and_eq_true, decide_eq_true_eq, low, high] at inside
    rw [Option.some.injEq]
    omega
  · next outside =>
    simp only [Bool.and_eq_true, decide_eq_true_eq, low, high] at outside
    constructor
    · intro found
      cases found
    · intro inside
      omega

/-! ## Encodings by their length -/

/-- A byte is given by its number, if that is small enough. -/
theorem ofNat_eq_iff {byte : UInt8} {code : Nat} (small : code < 0x100) :
    UInt8.ofNat code = byte ↔ byte.toNat = code := by
  rw [← UInt8.toNat_inj, UInt8.toNat_ofNat', Nat.mod_eq_of_lt small]
  exact eq_comm

section

variable {value : Char} {a b c d : UInt8}

/-- Characters are numbered up to 10FFFF. -/
theorem code_lt (value : Char) : value.val.toNat < 0x110000 := by
  rcases value.valid with low | ⟨-, high⟩
  · exact Nat.lt_trans low (by decide)
  · exact high

/-- The encodings of one byte. -/
theorem encoded_one_iff :
    String.utf8EncodeChar value = [a] ↔ value.val.toNat < 0x80 ∧ a.toNat = value.val.toNat := by
  unfold String.utf8EncodeChar
  dsimp only
  repeat' split
  all_goals
    simp (disch := omega) only [List.cons.injEq, ofNat_eq_iff, reduceCtorEq, and_true, and_false,
      false_iff]
    omega

/-- The encodings of two bytes. -/
theorem encoded_two_iff :
    String.utf8EncodeChar value = [a, b] ↔
      0x80 ≤ value.val.toNat ∧ value.val.toNat < 0x800 ∧
        a.toNat = value.val.toNat / 0x40 + 0xC0 ∧ b.toNat = value.val.toNat % 0x40 + 0x80 := by
  unfold String.utf8EncodeChar
  dsimp only
  repeat' split
  all_goals
    simp (disch := omega) only [List.cons.injEq, ofNat_eq_iff, reduceCtorEq, and_true, and_false,
      false_iff]
    omega

/-- The encodings of three bytes. -/
theorem encoded_three_iff :
    String.utf8EncodeChar value = [a, b, c] ↔
      0x800 ≤ value.val.toNat ∧ value.val.toNat < 0x10000 ∧
        a.toNat = value.val.toNat / 0x1000 + 0xE0 ∧
        b.toNat = value.val.toNat / 0x40 % 0x40 + 0x80 ∧
        c.toNat = value.val.toNat % 0x40 + 0x80 := by
  unfold String.utf8EncodeChar
  dsimp only
  repeat' split
  all_goals
    simp (disch := omega) only [List.cons.injEq, ofNat_eq_iff, reduceCtorEq, and_true, and_false,
      false_iff]
    omega

/-- The encodings of four bytes. -/
theorem encoded_four_iff :
    String.utf8EncodeChar value = [a, b, c, d] ↔
      0x10000 ≤ value.val.toNat ∧
        a.toNat = value.val.toNat / 0x40000 + 0xF0 ∧
        b.toNat = value.val.toNat / 0x1000 % 0x40 + 0x80 ∧
        c.toNat = value.val.toNat / 0x40 % 0x40 + 0x80 ∧
        d.toNat = value.val.toNat % 0x40 + 0x80 := by
  have bound := code_lt value
  unfold String.utf8EncodeChar
  dsimp only
  repeat' split
  all_goals
    simp (disch := omega) only [List.cons.injEq, ofNat_eq_iff, reduceCtorEq, and_true, and_false,
      false_iff]
    omega

/-- An encoding has one to four bytes. -/
theorem encoded_cases (value : Char) :
    (∃ a, String.utf8EncodeChar value = [a]) ∨ (∃ a b, String.utf8EncodeChar value = [a, b]) ∨
      (∃ a b c, String.utf8EncodeChar value = [a, b, c]) ∨
      ∃ a b c d, String.utf8EncodeChar value = [a, b, c, d] := by
  unfold String.utf8EncodeChar
  dsimp only
  repeat' split
  · exact .inl ⟨_, rfl⟩
  · exact .inr (.inl ⟨_, _, rfl⟩)
  · exact .inr (.inr (.inl ⟨_, _, _, rfl⟩))
  · exact .inr (.inr (.inr ⟨_, _, _, _, rfl⟩))

end

/-! ## Reading characters -/

/-- A text begins with the encoding of the character that is read from it. -/
theorem encoded_of_character {text : Text} {value : Char} {width : Nat}
    (found : character? text = some (value, width)) :
    ∃ rest, text = String.utf8EncodeChar value ++ rest ∧
      width = (String.utf8EncodeChar value).length := by
  unfold character? at found
  simp only [UInt8.lt_iff_toNat_lt, UInt8.reduceToNat, Option.bind_eq_bind] at found
  repeat' split at found
  all_goals
    simp only [Option.map_eq_some_iff, Option.bind_eq_some_iff, Prod.mk.injEq, reduceCtorEq,
      scalar_eq_some_iff, payload_eq_some_iff] at found
  · next lead rest ascii =>
    obtain ⟨read, ⟨-, code⟩, rfl, rfl⟩ := found
    have encoded : String.utf8EncodeChar read = [lead] :=
      encoded_one_iff.mpr ⟨code ▸ ascii, code.symm⟩
    exact ⟨rest, by rw [encoded]; rfl, by rw [encoded]; rfl⟩
  · next lead _ _ two _ b rest =>
    obtain ⟨low, ⟨lowBits, lowByte⟩, read, ⟨least, code⟩, rfl, rfl⟩ := found
    have encoded : String.utf8EncodeChar read = [lead, b] := by
      rw [encoded_two_iff]
      omega
    exact ⟨rest, by rw [encoded]; rfl, by rw [encoded]; rfl⟩
  · next lead _ _ _ three _ b c rest =>
    obtain ⟨mid, ⟨midBits, midByte⟩, low, ⟨lowBits, lowByte⟩, read, ⟨least, code⟩, rfl, rfl⟩ :=
      found
    have encoded : String.utf8EncodeChar read = [lead, b, c] := by
      rw [encoded_three_iff]
      omega
    exact ⟨rest, by rw [encoded]; rfl, by rw [encoded]; rfl⟩
  · next lead _ _ _ above _ b c d rest =>
    obtain ⟨high, ⟨highBits, highByte⟩, mid, ⟨midBits, midByte⟩, low, ⟨lowBits, lowByte⟩, read,
      ⟨least, code⟩, rfl, rfl⟩ := found
    have bound := code_lt read
    have encoded : String.utf8EncodeChar read = [lead, b, c, d] := by
      rw [encoded_four_iff]
      omega
    exact ⟨rest, by rw [encoded]; rfl, by rw [encoded]; rfl⟩

/-- The character is read from every text that begins with its encoding. -/
theorem character_encoded (value : Char) (rest : Text) :
    character? (String.utf8EncodeChar value ++ rest) =
      some (value, (String.utf8EncodeChar value).length) := by
  have bound := code_lt value
  unfold character?
  simp only [UInt8.lt_iff_toNat_lt, UInt8.reduceToNat, Option.bind_eq_bind]
  rcases encoded_cases value with ⟨a, encoded⟩ | ⟨a, b, encoded⟩ | ⟨a, b, c, encoded⟩ |
    ⟨a, b, c, d, encoded⟩
  · obtain ⟨ascii, code⟩ := encoded_one_iff.mp encoded
    have read : scalar? 0 a.toNat = some value := scalar_eq_some_iff.mpr ⟨Nat.zero_le _, code.symm⟩
    rw [encoded, List.singleton_append]
    dsimp only
    rw [if_pos (by omega), read]
    rfl
  · obtain ⟨least, most, first, second⟩ := encoded_two_iff.mp encoded
    have low : payload? b = some (value.val.toNat % 0x40) := payload_eq_some_iff.mpr (by omega)
    have read : scalar? 0x80 ((a.toNat - 0xC0) * 0x40 + value.val.toNat % 0x40) = some value :=
      scalar_eq_some_iff.mpr (by omega)
    rw [encoded]
    simp only [List.cons_append, List.nil_append]
    rw [if_neg (by omega), if_neg (by omega), if_pos (by omega), low, Option.bind_some, read]
    rfl
  · obtain ⟨least, most, first, second, third⟩ := encoded_three_iff.mp encoded
    have mid : payload? b = some (value.val.toNat / 0x40 % 0x40) :=
      payload_eq_some_iff.mpr (by omega)
    have low : payload? c = some (value.val.toNat % 0x40) := payload_eq_some_iff.mpr (by omega)
    have read : scalar? 0x800 (((a.toNat - 0xE0) * 0x40 + value.val.toNat / 0x40 % 0x40) * 0x40 +
        value.val.toNat % 0x40) = some value := scalar_eq_some_iff.mpr (by omega)
    rw [encoded]
    simp only [List.cons_append, List.nil_append]
    rw [if_neg (by omega), if_neg (by omega), if_neg (by omega), if_pos (by omega), mid,
      Option.bind_some, low, Option.bind_some, read]
    rfl
  · obtain ⟨least, first, second, third, fourth⟩ := encoded_four_iff.mp encoded
    have high : payload? b = some (value.val.toNat / 0x1000 % 0x40) :=
      payload_eq_some_iff.mpr (by omega)
    have mid : payload? c = some (value.val.toNat / 0x40 % 0x40) :=
      payload_eq_some_iff.mpr (by omega)
    have low : payload? d = some (value.val.toNat % 0x40) := payload_eq_some_iff.mpr (by omega)
    have read : scalar? 0x10000 ((((a.toNat - 0xF0) * 0x40 + value.val.toNat / 0x1000 % 0x40) *
        0x40 + value.val.toNat / 0x40 % 0x40) * 0x40 + value.val.toNat % 0x40) = some value :=
      scalar_eq_some_iff.mpr (by omega)
    rw [encoded]
    simp only [List.cons_append, List.nil_append]
    rw [if_neg (by omega), if_neg (by omega), if_neg (by omega), if_neg (by omega), high,
      Option.bind_some, mid, Option.bind_some, low, Option.bind_some, read]
    rfl

/-! ## More text behind a character -/

/-- The first byte of an encoding is no continuation byte, and the others are. -/
theorem encoded_payload {value : Char} {lead : UInt8} {others : Text}
    (encoded : String.utf8EncodeChar value = lead :: others) :
    payload? lead = none ∧ ∀ byte ∈ others, payload? byte ≠ none := by
  have bound := code_lt value
  have leads (small : lead.toNat < 0x80 ∨ 0xC0 ≤ lead.toNat) : payload? lead = none := by
    rw [Option.eq_none_iff_forall_ne_some]
    intro bits found
    obtain ⟨few, same⟩ := payload_eq_some_iff.mp found
    omega
  have continues {byte : UInt8} {bits : Nat} (few : bits < 0x40) (same : byte.toNat = bits + 0x80) :
      payload? byte ≠ none := by
    rw [payload_eq_some_iff.mpr ⟨few, same⟩]
    exact Option.some_ne_none bits
  rcases encoded_cases value with ⟨a, form⟩ | ⟨a, b, form⟩ | ⟨a, b, c, form⟩ | ⟨a, b, c, d, form⟩ <;>
    obtain ⟨rfl, rfl⟩ := List.cons.inj (form.symm.trans encoded)
  · obtain ⟨low, same⟩ := encoded_one_iff.mp form
    exact ⟨leads (by omega), by simp⟩
  · obtain ⟨least, most, first, second⟩ := encoded_two_iff.mp form
    refine ⟨leads (by omega), ?_⟩
    rw [List.forall_mem_singleton]
    exact continues (Nat.mod_lt _ (by decide)) second
  · obtain ⟨least, most, first, second, third⟩ := encoded_three_iff.mp form
    refine ⟨leads (by omega), ?_⟩
    rw [List.forall_mem_cons, List.forall_mem_singleton]
    exact ⟨continues (Nat.mod_lt _ (by decide)) second, continues (Nat.mod_lt _ (by decide)) third⟩
  · obtain ⟨least, first, second, third, fourth⟩ := encoded_four_iff.mp form
    refine ⟨leads (by omega), ?_⟩
    rw [List.forall_mem_cons, List.forall_mem_cons, List.forall_mem_singleton]
    exact ⟨continues (Nat.mod_lt _ (by decide)) second, continues (Nat.mod_lt _ (by decide)) third,
      continues (Nat.mod_lt _ (by decide)) fourth⟩

/-- The character at the front of a text is the same with more text behind it that does not begin
with a continuation byte. -/
theorem character_append {text more : Text} (some : text ≠ [])
    (starts : ∀ byte ∈ more.head?, payload? byte = none) :
    character? (text ++ more) = character? text := by
  cases found : character? text with
  | some read =>
    obtain ⟨value, width⟩ := read
    obtain ⟨rest, rfl, rfl⟩ := encoded_of_character found
    rw [List.append_assoc]
    exact character_encoded value (rest ++ more)
  | none =>
    rw [Option.eq_none_iff_forall_ne_some]
    rintro ⟨value, width⟩ longer
    obtain ⟨rest, whole, -⟩ := encoded_of_character longer
    -- The encoding ends inside the text, or it goes on with the first byte behind the text.
    rcases List.append_eq_append_iff.mp whole with ⟨middle, encoded, rfl⟩ | ⟨middle, rfl, -⟩
    · cases middle with
      | nil =>
        rw [List.append_nil] at encoded
        have read := character_encoded value []
        rw [List.append_nil, encoded, found] at read
        cases read
      | cons byte middle =>
        obtain ⟨lead, others, rfl⟩ := List.exists_cons_of_ne_nil some
        have inside := (encoded_payload encoded).2 byte (by simp)
        exact inside (starts byte rfl)
    · rw [character_encoded value middle] at found
      cases found

/-! ## Pieces -/

/-- A text is one character, or one byte that with what follows it begins no character. -/
def IsPiece (piece rest : Text) : Prop :=
  (∃ value, piece = String.utf8EncodeChar value) ∨
    ∃ byte, piece = [byte] ∧ ∀ value, ¬ String.utf8EncodeChar value <+: byte :: rest

/-- The bytes of the first piece are a character or a stray byte. -/
theorem isPiece_take (byte : UInt8) (text : Text) :
    IsPiece ((byte :: text).take (pieceWidth (byte :: text)))
      ((byte :: text).drop (pieceWidth (byte :: text))) := by
  unfold pieceWidth
  cases found : character? (byte :: text) with
  | some result =>
    obtain ⟨value, width⟩ := result
    obtain ⟨rest, whole, rfl⟩ := encoded_of_character found
    refine .inl ⟨value, ?_⟩
    dsimp only
    rw [whole, List.take_left]
  | none =>
    refine .inr ⟨byte, rfl, ?_⟩
    rintro value ⟨rest, whole⟩
    have read := character_encoded value rest
    rw [whole, List.drop_succ_cons, List.drop_zero, found] at read
    cases read

/-- One piece of a text is the first piece of another that goes on otherwise, unless a continuation
byte follows. -/
theorem pieceWidth_append {piece old rest : Text} (isPiece : IsPiece piece old)
    (starts : ∀ byte ∈ rest.head?, payload? byte = none) :
    pieceWidth (piece ++ rest) = piece.length := by
  unfold pieceWidth
  rcases isPiece with ⟨value, rfl⟩ | ⟨byte, rfl, stray⟩
  · rw [character_encoded value rest]
  · have none : character? ([byte] ++ rest) = none := by
      rw [character_append (List.cons_ne_nil byte []) starts, Option.eq_none_iff_forall_ne_some]
      rintro ⟨value, width⟩ found
      obtain ⟨more, whole, -⟩ := encoded_of_character found
      exact stray value ((List.prefix_append _ more).trans (whole ▸ List.prefix_append [byte] old))
    rw [none]
    rfl

end Lengua.Text
