import Lengua.Proofs.Character
import Lengua.Text.Blank
import Mathlib.Data.List.TakeWhile

/-!
# White space around a text

White space is removed from a text piece by piece, so what is removed depends on where the
pieces begin. Padding cannot move them: a blank text consists of whole characters
(`trimmed_eq_nil_iff`), and such a text ends the pieces before it and begins the pieces after
it. Hence a text is its trimmed form between two blank ones (`exists_padding`), and any blank
texts around it change nothing (`trimmed_padded`).
-/

namespace Lengua.Text

/-! ## The pieces of a text one by one -/

/-- Pieces are read from behind the bytes that are passed over. -/
theorem piecesAfter_eq (skip : Nat) (text : Text) :
    piecesAfter skip text = pieces (text.drop skip) := by
  induction skip generalizing text with
  | zero => rw [List.drop_zero, pieces]
  | succ skip ih =>
    cases text with
    | nil => rfl
    | cons byte rest => exact ih rest

/-- An empty text has no pieces. -/
theorem pieces_nil : pieces [] = [] := by rw [pieces]; rfl

/-- The first piece of a text that begins with a character. -/
theorem pieces_encoded (value : Char) (rest : Text) :
    pieces (String.utf8EncodeChar value ++ rest) = .char value :: pieces rest := by
  have read := character_encoded value rest
  cases encoded : String.utf8EncodeChar value with
  | nil => exact absurd encoded String.utf8EncodeChar_ne_nil
  | cons lead others =>
    rw [encoded, List.cons_append] at read
    rw [List.cons_append, pieces, piecesAfter, read]
    dsimp only
    rw [piecesAfter_eq, List.length_cons, Nat.add_sub_cancel, List.drop_left]

/-- The first piece of a text that begins with a stray byte. -/
theorem pieces_stray {byte : UInt8} {rest : Text} (stray : character? (byte :: rest) = none) :
    pieces (byte :: rest) = .stray byte :: pieces rest := by
  rw [pieces, piecesAfter, stray, piecesAfter_eq, List.drop_zero]

/-- Induction on a text by its pieces. -/
@[elab_as_elim]
theorem piecewise {motive : Text → Prop} (nil : motive [])
    (char : ∀ value rest, motive rest → motive (String.utf8EncodeChar value ++ rest))
    (stray : ∀ byte rest, character? (byte :: rest) = none → motive rest → motive (byte :: rest))
    (text : Text) : motive text := by
  match text with
  | [] => exact nil
  | byte :: rest =>
    cases found : character? (byte :: rest) with
    | none => exact stray byte rest found (piecewise nil char stray rest)
    | some read =>
      obtain ⟨value, width⟩ := read
      obtain ⟨more, whole, -⟩ := encoded_of_character found
      have shorter : more.length < rest.length + 1 := by
        have lengths := congrArg List.length whole
        have some : 0 < (String.utf8EncodeChar value).length :=
          List.length_pos_iff.mpr String.utf8EncodeChar_ne_nil
        rw [List.length_cons, List.length_append] at lengths
        omega
      rw [whole]
      exact char value more (piecewise nil char stray more)
termination_by text.length

/-- The pieces of a text, followed by those of a text that does not begin with a continuation
byte. -/
theorem pieces_append {more : Text} (starts : ∀ byte ∈ more.head?, payload? byte = none)
    (text : Text) : pieces (text ++ more) = pieces text ++ pieces more := by
  induction text using piecewise with
  | nil => rfl
  | char value rest ih =>
    rw [List.append_assoc, pieces_encoded, pieces_encoded, ih, List.cons_append]
  | stray byte rest stray ih =>
    have still : character? (byte :: (rest ++ more)) = none :=
      (character_append (List.cons_ne_nil byte rest) starts).trans stray
    rw [List.cons_append, pieces_stray still, pieces_stray stray, ih, List.cons_append]

/-- The pieces of a text make it up. -/
theorem flatMap_pieces (text : Text) : (pieces text).flatMap Piece.bytes = text := by
  induction text using piecewise with
  | nil => rfl
  | char value rest ih => rw [pieces_encoded, List.flatMap_cons, ih, Piece.bytes]
  | stray byte rest stray ih =>
    rw [pieces_stray stray, List.flatMap_cons, ih, Piece.bytes, List.singleton_append]

/-- The pieces of a text that begins with characters. -/
theorem pieces_characters (values : List Char) (rest : Text) :
    pieces (values.flatMap String.utf8EncodeChar ++ rest) = values.map .char ++ pieces rest := by
  induction values with
  | nil => rfl
  | cons value values ih =>
    rw [List.flatMap_cons, List.append_assoc, pieces_encoded, ih, List.map_cons, List.cons_append]

/-- A text of characters does not begin with a continuation byte. -/
theorem starts_characters (values : List Char) :
    ∀ byte ∈ (values.flatMap String.utf8EncodeChar).head?, payload? byte = none := by
  cases values with
  | nil => simp
  | cons value values =>
    obtain ⟨lead, others, encoded⟩ :=
      List.exists_cons_of_ne_nil (String.utf8EncodeChar_ne_nil (c := value))
    intro byte first
    rw [List.flatMap_cons, encoded, List.cons_append, List.head?_cons, Option.mem_some_iff] at first
    exact first ▸ (encoded_payload encoded).1

/-! ## Lists without their ends -/

section

variable {α : Type} {test : α → Bool}

/-- What is taken from the ends of a list passes the test. -/
theorem exists_stripped (test : α → Bool) (items : List α) :
    ∃ front back, (∀ item ∈ front, test item = true) ∧ (∀ item ∈ back, test item = true) ∧
      items = front ++ stripped test items ++ back := by
  refine ⟨items.takeWhile test, ((items.dropWhile test).reverse.takeWhile test).reverse, ?_, ?_, ?_⟩
  · intro item member
    exact List.mem_takeWhile_imp member
  · intro item member
    exact List.mem_takeWhile_imp (List.mem_reverse.mp member)
  · rw [stripped, List.append_assoc, ← List.reverse_append, List.takeWhile_append_dropWhile,
      List.reverse_reverse, List.takeWhile_append_dropWhile]

/-- More elements at the ends that pass the test change nothing. -/
theorem stripped_padded {front back : List α} (atFront : ∀ item ∈ front, test item = true)
    (atBack : ∀ item ∈ back, test item = true) (items : List α) :
    stripped test (front ++ items ++ back) = stripped test items := by
  have reversed : ∀ item ∈ back.reverse, test item = true := by
    simpa only [List.mem_reverse] using atBack
  unfold stripped
  rw [List.append_assoc, List.dropWhile_append_of_pos atFront, List.dropWhile_append]
  split
  · next gone =>
    rw [List.dropWhile_eq_nil_iff.mpr atBack, List.isEmpty_iff.mp gone]
  · rw [List.reverse_append, List.dropWhile_append_of_pos reversed]

end

/-! ## Texts without their padding -/

/-- Blank pieces are characters. -/
theorem exists_characters {blanks : List Piece} (allBlank : ∀ piece ∈ blanks, piece.isBlank = true) :
    ∃ values : List Char, (∀ value ∈ values, isBlankChar value = true) ∧
      blanks.flatMap Piece.bytes = values.flatMap String.utf8EncodeChar := by
  induction blanks with
  | nil => exact ⟨[], by simp, rfl⟩
  | cons piece blanks ih =>
    obtain ⟨isBlank, others⟩ := List.forall_mem_cons.mp allBlank
    obtain ⟨values, blankValues, same⟩ := ih others
    cases piece with
    | stray byte => cases isBlank
    | char value =>
      refine ⟨value :: values, List.forall_mem_cons.mpr ⟨isBlank, blankValues⟩, ?_⟩
      rw [List.flatMap_cons, List.flatMap_cons, same, Piece.bytes]

/-- A text that is all white space consists of characters that are. -/
theorem trimmed_eq_nil_iff {text : Text} :
    text.trimmed = [] ↔ ∃ values : List Char, (∀ value ∈ values, isBlankChar value = true) ∧
      text = values.flatMap String.utf8EncodeChar := by
  constructor
  · intro blank
    obtain ⟨front, back, atFront, atBack, whole⟩ := exists_stripped Piece.isBlank text.pieces
    have nothing : stripped Piece.isBlank text.pieces = [] := by
      cases left : stripped Piece.isBlank text.pieces with
      | nil => rfl
      | cons piece pieces =>
        rw [trimmed, left, List.flatMap_cons, List.append_eq_nil_iff] at blank
        cases piece with
        | char value => exact absurd blank.1 String.utf8EncodeChar_ne_nil
        | stray byte => cases blank.1
    rw [nothing, List.append_nil] at whole
    have allBlank : ∀ piece ∈ text.pieces, piece.isBlank = true := by
      rw [whole]
      exact List.forall_mem_append.mpr ⟨atFront, atBack⟩
    obtain ⟨values, blankValues, same⟩ := exists_characters allBlank
    exact ⟨values, blankValues, (flatMap_pieces text).symm.trans same⟩
  · rintro ⟨values, blankValues, rfl⟩
    have read := pieces_characters values []
    rw [List.append_nil, pieces_nil, List.append_nil] at read
    have allBlank : ∀ piece ∈ values.map Piece.char, piece.isBlank = true :=
      List.forall_mem_map.mpr blankValues
    have nothing := stripped_padded allBlank (List.forall_mem_nil _) []
    rw [List.append_nil, List.append_nil] at nothing
    rw [trimmed, read]
    exact congrArg (List.flatMap Piece.bytes) nothing

/-- White space around a text does not show in its trimmed form. -/
theorem trimmed_padded {before after : Text} (blankBefore : before.trimmed = [])
    (blankAfter : after.trimmed = []) (text : Text) :
    (before ++ text ++ after).trimmed = text.trimmed := by
  obtain ⟨front, atFront, rfl⟩ := trimmed_eq_nil_iff.mp blankBefore
  obtain ⟨back, atBack, rfl⟩ := trimmed_eq_nil_iff.mp blankAfter
  have behind := pieces_characters back []
  rw [List.append_nil, pieces_nil, List.append_nil] at behind
  have frontBlank : ∀ piece ∈ front.map Piece.char, piece.isBlank = true :=
    List.forall_mem_map.mpr atFront
  have backBlank : ∀ piece ∈ back.map Piece.char, piece.isBlank = true :=
    List.forall_mem_map.mpr atBack
  rw [trimmed, pieces_append (starts_characters back), pieces_characters, behind,
    stripped_padded frontBlank backBlank, trimmed]

/-- A text is its trimmed form between white space. -/
theorem exists_padding (text : Text) :
    ∃ before after, before.trimmed = [] ∧ after.trimmed = [] ∧
      text = before ++ text.trimmed ++ after := by
  obtain ⟨front, back, atFront, atBack, whole⟩ := exists_stripped Piece.isBlank text.pieces
  refine ⟨front.flatMap Piece.bytes, back.flatMap Piece.bytes,
    trimmed_eq_nil_iff.mpr (exists_characters atFront),
    trimmed_eq_nil_iff.mpr (exists_characters atBack), ?_⟩
  rw [trimmed, ← List.flatMap_append, ← List.flatMap_append, ← whole, flatMap_pieces]

/-- A trimmed text has no white space left around it. -/
theorem trimmed_trimmed (text : Text) : text.trimmed.trimmed = text.trimmed := by
  obtain ⟨before, after, blankBefore, blankAfter, whole⟩ := exists_padding text
  calc
    text.trimmed.trimmed = (before ++ text.trimmed ++ after).trimmed :=
      (trimmed_padded blankBefore blankAfter text.trimmed).symm
    _ = text.trimmed := congrArg trimmed whole.symm

end Lengua.Text
