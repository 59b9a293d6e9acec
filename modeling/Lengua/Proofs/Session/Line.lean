import Lengua.Proofs.Concatenation
import Lengua.Proofs.Trimming
import Lengua.Session

/-!
# Lines that are programs

A session looks at the first byte of a line behind white space to tell a question from a
program, and white space is more than the separators of tokens are. A line that begins with
a genuine token cannot be mistaken for a question all the same: the only white space before
the token is separators, and no token begins with a colon.
-/

namespace Lengua

namespace Text

/-- An ASCII byte is a character on its own. -/
theorem pieces_cons {byte : UInt8} (low : byte.toNat < 0x80) (rest : Text) :
    ∃ value : Char, value.toNat = byte.toNat ∧ (Piece.char value).bytes = [byte] ∧
      pieces (byte :: rest) = .char value :: pieces rest := by
  have valid : byte.toNat.isValidChar := .inl (Nat.lt_trans low (by decide))
  have coded : (Char.ofNatAux byte.toNat valid).val.toNat = byte.toNat := rfl
  have encoded : String.utf8EncodeChar (Char.ofNatAux byte.toNat valid) = [byte] :=
    encoded_one_iff.mpr ⟨by rw [coded]; exact low, coded.symm⟩
  have read := pieces_encoded (Char.ofNatAux byte.toNat valid) rest
  rw [encoded, List.singleton_append] at read
  exact ⟨Char.ofNatAux byte.toNat valid, coded, encoded, read⟩

/-- A list keeps the first element that fails a test when it loses those at either end that pass
it. -/
theorem head_stripped {α : Type} {test : α → Bool} {front : List α}
    (passes : ∀ item ∈ front, test item = true) {item : α} (fails : test item = false)
    (rest : List α) : (stripped test (front ++ item :: rest)).head? = some item := by
  have start : (front ++ item :: rest).dropWhile test = item :: rest := by
    rw [List.dropWhile_append_of_pos passes, List.dropWhile_cons_of_neg (by simp [fails])]
  have last : ([item] : List α).dropWhile test = [item] :=
    List.dropWhile_cons_of_neg (by simp [fails])
  rw [stripped, start, List.reverse_cons, List.dropWhile_append]
  split
  · rw [last]
    rfl
  · rw [List.reverse_append]
    rfl

/-- The separators of tokens are white space. -/
theorem pieces_gap {gap : Text} (blank : ∀ byte ∈ gap, isSeparator byte = true) (rest : Text) :
    ∃ front : List Piece, (∀ piece ∈ front, piece.isBlank = true) ∧
      pieces (gap ++ rest) = front ++ pieces rest := by
  induction gap with
  | nil => exact ⟨[], by simp, rfl⟩
  | cons byte gap ih =>
    obtain ⟨front, allBlank, same⟩ :=
      ih fun other member => blank other (List.mem_cons_of_mem _ member)
    have separator := blank byte List.mem_cons_self
    have code : byte.toNat = 0x20 ∨ byte.toNat = 0x09 ∨ byte.toNat = 0x0D ∨ byte.toNat = 0x0A := by
      simp only [isSeparator, Bool.or_eq_true, beq_iff_eq, Text.space, Text.newline] at separator
      rcases separator with ((rfl | rfl) | rfl) | rfl <;> decide
    obtain ⟨value, coded, -, read⟩ := pieces_cons (by omega : byte.toNat < 0x80) (gap ++ rest)
    refine ⟨.char value :: front, List.forall_mem_cons.mpr ⟨?_, allBlank⟩, ?_⟩
    case refine_2 => rw [List.cons_append, read, same, List.cons_append]
    rw [Piece.isBlank, isBlankChar, coded]
    rcases code with code | code | code | code <;> rw [code] <;> rfl

/-- White space before a visible ASCII byte is trimmed up to the byte. -/
theorem head_trimmed {gap : Text} (blank : ∀ byte ∈ gap, isSeparator byte = true) {byte : UInt8}
    (visible : 0x20 < byte.toNat) (low : byte.toNat < 0x80) (rest : Text) :
    (trimmed (gap ++ byte :: rest)).head? = some byte := by
  obtain ⟨front, allBlank, same⟩ := pieces_gap blank (byte :: rest)
  obtain ⟨value, coded, bytes, read⟩ := pieces_cons low rest
  have solid : (Piece.char value).isBlank = false := by
    simp only [Piece.isBlank, isBlankChar, coded, Bool.or_eq_false_iff, Bool.and_eq_false_iff,
      decide_eq_false_iff_not, beq_eq_false_iff_ne]
    omega
  rw [trimmed, same, read]
  obtain ⟨others, begins⟩ := List.head?_eq_some_iff.mp (head_stripped allBlank solid (pieces rest))
  rw [begins, List.flatMap_cons, bytes]
  rfl

end Text

/-- A sign is visible and no colon. -/
theorem Kind.visible_ofSign {byte : UInt8} {kind : Kind} (found : Kind.ofSign? byte = some kind) :
    0x20 < byte.toNat ∧ byte.toNat < 0x80 ∧ byte.toNat ≠ 0x3A := by
  revert found
  fun_cases Kind.ofSign? byte <;> rintro ⟨⟩ <;> simp_all only [beq_iff_eq] <;> decide

/-- A byte that begins a token is visible and no colon. -/
theorem Lexeme.visible_of_legal {byte : UInt8} {text : Text}
    (legal : (Lexeme.first byte text).kind ≠ .illegal) :
    0x20 < byte.toNat ∧ byte.toNat < 0x80 ∧ byte.toNat ≠ 0x3A := by
  unfold first at legal
  split at legal
  · next letter =>
    simp [Text.isLetter, Text.underscore, UInt8.le_iff_toNat_le, ← UInt8.toNat_inj] at letter
    omega
  split at legal
  · next digit =>
    simp [Text.isDigit, UInt8.le_iff_toNat_le] at digit
    omega
  split at legal
  · next quote =>
    simp only [Bool.or_eq_true, beq_iff_eq] at quote
    rcases quote with rfl | rfl <;> decide
  · cases found : Kind.ofSign? byte with
    | some kind => exact Kind.visible_ofSign found
    | none =>
      have alone : text.head?.bind (Kind.ofPair? byte) = none := by
        rw [Option.bind_eq_none_iff]
        intro second _
        exact Kind.ofPair_of_ofSign found second
      rw [sign, alone] at legal
      simp only [found] at legal
      exact absurd rfl legal

/-- The lines that are programs: they are not blank, do not end the session and are no questions. -/
theorem Input.ofLine_eq_program_iff {settings : Settings} {line : Text} {reading : Reading} :
    Input.ofLine settings line = .program reading ↔
      line.trimmed ≠ [] ∧ line.trimmed ≠ settings.exitCommand ∧
        line.trimmed.head? ≠ some 0x3A ∧ reading = Program.ofText line := by
  unfold Input.ofLine
  dsimp only
  by_cases blank : line.trimmed = []
  · simp [blank]
  have solid : line.trimmed.isEmpty = false := by simpa using blank
  rw [solid, if_neg Bool.false_ne_true]
  by_cases exit : line.trimmed = settings.exitCommand
  · simp [exit]
  rw [if_neg exit]
  by_cases question : line.trimmed.head? = some 0x3A
  · simp [question]
  have noQuestion : (line.trimmed.head? == some 0x3A) = false := by simpa using question
  rw [noQuestion, if_neg Bool.false_ne_true, Input.program.injEq]
  constructor
  · intro same
    exact ⟨blank, exit, question, same.symm⟩
  · rintro ⟨-, -, -, same⟩
    exact same.symm

/-- A self-contained line that is not blank and does not end the session is a program. -/
theorem Input.ofLine_of_selfContained {settings : Settings} {line : Text}
    (contained : line.SelfContained) (solid : line.trimmed ≠ [])
    (stays : line.trimmed ≠ settings.exitCommand) :
    Input.ofLine settings line = .program (Program.ofText line) := by
  obtain ⟨tokens, semicolon, ⟨last, ends, yields, -⟩, legal, -⟩ := contained.spelled
  have first : (Scanner.ofText line).next.1.kind ≠ .eof ∧
      (Scanner.ofText line).next.1.kind ≠ .illegal := by
    obtain ⟨token, others, same⟩ := List.exists_cons_of_ne_nil (List.concat_ne_nil semicolon tokens)
    rw [same] at yields legal
    obtain ⟨found, going, -⟩ := yields.uncons
    rw [found]
    exact ⟨going, legal token List.mem_cons_self⟩
  have head : line.trimmed.head? ≠ some 0x3A := by
    have whole : line.takeWhile isSeparator ++ line.dropWhile isSeparator = line :=
      List.takeWhile_append_dropWhile
    cases start : line.dropWhile isSeparator with
    | nil =>
      have blank : (Scanner.ofText line).rest.dropWhile isSeparator = [] := start
      rw [Scanner.next_of_nil blank] at first
      exact absurd rfl first.1
    | cons byte text =>
      have begins : (Scanner.ofText line).rest.dropWhile isSeparator = byte :: text := start
      rw [Scanner.next_of_cons begins] at first
      obtain ⟨visible, low, noColon⟩ := Lexeme.visible_of_legal first.2
      have blank : ∀ byte ∈ line.takeWhile isSeparator, isSeparator byte = true :=
        List.all_eq_true.mp List.all_takeWhile
      have trimmed := Text.head_trimmed blank visible low text
      rw [← start, whole] at trimmed
      rw [trimmed]
      intro same
      exact noColon (congrArg UInt8.toNat (Option.some.inj same))
  exact Input.ofLine_eq_program_iff.mpr ⟨solid, stays, head, rfl⟩

end Lengua
