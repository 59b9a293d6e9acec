import Lengua.Proofs.Lossless
import Lengua.Proofs.Numeral
import Lengua.Tree.SyntaxError
import Lengua.Value.Fault

/-!
# Lines

A scanner counts lines: a token has the line that its spelling begins on, and the line feeds that
are left to count stand in the text that is left. So the lines of the tokens of a text never go
back, and they lie between the first line and the last, on which the end mark stands.

A report names a line in words. The number stands behind the last `línea`, whatever literals of the
program the report quotes before it (`Text.namedLine?`).
-/

namespace Lengua

/-! ## Lines of tokens -/

namespace Scanner

/-- A token has a line between those of the scanners before it and after it, and no line feed is
lost. -/
theorem next_lines {scanner : Scanner} (found : scanner.next.1.kind ≠ .eof) :
    scanner.line ≤ scanner.next.1.line ∧ scanner.next.1.line ≤ scanner.next.2.line ∧
      scanner.next.2.line + Text.lineFeeds scanner.next.2.rest =
        scanner.line + Text.lineFeeds scanner.rest := by
  obtain ⟨place, same, text, lines, -, line, -⟩ := next_placed found
  rw [Placed.text, Text.lineFeeds_append] at lines
  rw [← same, lines, line, text, Placed.text, Text.lineFeeds_append, Text.lineFeeds_append]
  push_cast
  omega

/-- The lines of the tokens that a scanner finds never go back, and lie between its line and that
of the scanner that is left. -/
theorem Yields.lines {scanner last : Scanner} {tokens : List Token}
    (yields : scanner.Yields tokens last) :
    scanner.line ≤ last.line ∧
      last.line + Text.lineFeeds last.rest = scanner.line + Text.lineFeeds scanner.rest ∧
      (∀ token ∈ tokens, scanner.line ≤ token.line ∧ token.line ≤ last.line) ∧
      tokens.Pairwise fun first second => first.line ≤ second.line := by
  induction tokens generalizing scanner with
  | nil =>
    obtain rfl : scanner = last := (Prod.mk.inj yields.pulled).2
    exact ⟨Int.le_refl _, rfl, by simp, .nil⟩
  | cons token tokens ih =>
    obtain ⟨rfl, found, rest⟩ := yields.uncons
    obtain ⟨before, after, kept⟩ := next_lines found
    obtain ⟨ahead, total, between, sorted⟩ := ih rest
    refine ⟨by omega, total.trans kept, ?_, List.pairwise_cons.mpr ⟨?_, sorted⟩⟩
    · intro token member
      rcases List.mem_cons.mp member with rfl | later
      · exact ⟨before, Int.le_trans after ahead⟩
      · have bounds := between token later
        exact ⟨by omega, bounds.2⟩
    · intro token later
      exact Int.le_trans after (between token later).1

end Scanner

/-- The tokens of a text and its end mark, once or again and again. Their lines never go back, and
lie between the first line of the text and the last. -/
theorem Token.exists_scan_lines (source : Text) :
    ∃ tokens, Token.scan source = tokens ++ [Token.eof (1 + Text.lineFeeds source)] ∧
      ∀ count, let all := tokens ++ List.replicate count (Token.eof (1 + Text.lineFeeds source))
        (∀ token ∈ all, 1 ≤ token.line ∧ token.line ≤ 1 + Text.lineFeeds source) ∧
          all.Pairwise fun first second => first.line ≤ second.line := by
  obtain ⟨tokens, last, line, yields, ended⟩ := (Scanner.ofText source).exists_yields
  obtain ⟨ahead, total, between, sorted⟩ := yields.lines
  obtain ⟨-, counted⟩ := Scanner.blank_of_ended ended
  have first : (Scanner.ofText source).line = 1 := rfl
  have mark : line = 1 + Text.lineFeeds source := counted.trans total
  rw [← mark]
  refine ⟨tokens, yields.scan ended, fun count => ⟨?_, ?_⟩⟩
  · intro token member
    rcases List.mem_append.mp member with found | mark
    · have bounds := between token found
      omega
    · have same : token.line = line := congrArg Token.line (List.eq_of_mem_replicate mark)
      omega
  · refine List.pairwise_append.mpr ⟨sorted, List.pairwise_replicate.mpr (.inr (Int.le_refl _)), ?_⟩
    intro token found mark member
    have same : mark.line = line := congrArg Token.line (List.eq_of_mem_replicate member)
    have bounds := between token found
    omega

/-- The lines of the tokens of a text lie between its first line and its last. -/
theorem Token.scan_line {source : Text} {token : Token} (member : token ∈ Token.scan source) :
    1 ≤ token.line ∧ token.line ≤ 1 + Text.lineFeeds source := by
  obtain ⟨tokens, scanned, lines⟩ := Token.exists_scan_lines source
  exact (lines 1).1 token (scanned ▸ member)

/-! ## Lines in reports -/

namespace Text

/-- What stands behind the last occurrence of a phrase in a text. -/
def behindLast? (phrase : Text) : Text → Option Text
  | [] => none
  | byte :: text =>
    match behindLast? phrase text with
    | some after => some after
    | none => if phrase <+: byte :: text then some ((byte :: text).drop phrase.length) else none

/-- The number of the line that a report names. -/
def namedLine? (report : Text) : Option Text :=
  (behindLast? (utf8 "línea ") report).map (·.takeWhile isDigit)

/-- A phrase does not occur where its first byte does not. -/
theorem behindLast_eq_none {byte : UInt8} {phrase text : Text} (absent : byte ∉ text) :
    behindLast? (byte :: phrase) text = none := by
  induction text with
  | nil => rfl
  | cons first text ih =>
    obtain ⟨other, later⟩ := not_or.mp (mt List.mem_cons.mpr absent)
    rw [behindLast?, ih later]
    exact if_neg fun leads => other (List.cons_prefix_cons.mp leads).1

/-- The last occurrence of a phrase is one behind which its first byte does not occur, and within
which it does not occur again. -/
theorem behindLast_append (before : Text) {byte : UInt8} {phrase after : Text}
    (absent : byte ∉ phrase ++ after) :
    behindLast? (byte :: phrase) (before ++ (byte :: phrase ++ after)) = some after := by
  induction before with
  | nil =>
    have leads : byte :: phrase <+: byte :: (phrase ++ after) := List.prefix_append _ _
    have rest : (byte :: (phrase ++ after)).drop (byte :: phrase).length = after :=
      List.drop_left
    rw [List.nil_append, List.cons_append, behindLast?, behindLast_eq_none absent]
    simp only [if_pos leads, rest]
  | cons first before ih => rw [List.cons_append, behindLast?, ih]

/-- A report names the line whose number it has last, if what follows cannot be taken for one. -/
theorem namedLine_append (before after : Text) {line : Int} (positive : 0 ≤ line)
    (absent : 0x6C ∉ after) (ends : after.takeWhile isDigit = []) :
    namedLine? (before ++ (utf8 "cerca de la línea " ++ ofInt line) ++ after) =
      some (ofInt line) := by
  obtain ⟨number, rfl⟩ := Int.eq_ofNat_of_zero_le positive
  have digits : ∀ byte ∈ ofInt number, isDigit byte := (ofNat_digits number).2
  have last : 0x6C ∉ utf8 "ínea " ++ (ofInt number ++ after) := by
    intro member
    rcases List.mem_append.mp member with word | member
    · exact absurd word (by decide)
    rcases List.mem_append.mp member with digit | behind
    · exact absurd (digits _ digit) (by decide)
    · exact absent behind
  have phrase : utf8 "línea " = 0x6C :: utf8 "ínea " := by decide
  have parted : before ++ (utf8 "cerca de la línea " ++ ofInt number) ++ after =
      before ++ utf8 "cerca de la " ++ (utf8 "línea " ++ (ofInt number ++ after)) := by
    have words : utf8 "cerca de la línea " = utf8 "cerca de la " ++ utf8 "línea " := by decide
    simp only [words, List.append_assoc]
  rw [namedLine?, parted, phrase, behindLast_append _ last, Option.map_some,
    List.takeWhile_append_of_pos digits, ends, List.append_nil]

/-- A report that ends with the number of a line names this line. -/
theorem namedLine_last (before : Text) {line : Int} (positive : 0 ≤ line) :
    namedLine? (before ++ (utf8 "cerca de la línea " ++ ofInt line)) = some (ofInt line) := by
  have named := namedLine_append before [] positive List.not_mem_nil List.takeWhile_nil
  rwa [List.append_nil] at named

-- The word may stand in a literal that is quoted.
example : namedLine? (utf8 "Identificador sin definir: \"línea 7\" cerca de la línea 12") =
    some (utf8 "12") := by decide

end Text

/-- The report of a syntax error names its line. -/
theorem SyntaxError.namedLine_message (error : SyntaxError) (positive : 0 ≤ error.line) :
    Text.namedLine? error.message = some (Text.ofInt error.line) := by
  have named := Text.namedLine_last (error.cause ++ utf8 " ") positive
  have phrase : utf8 " cerca de la línea " = utf8 " " ++ utf8 "cerca de la línea " := by decide
  rwa [SyntaxError.message, phrase, ← List.append_assoc,
    List.append_assoc (error.cause ++ utf8 " ")]

/-- The report of a fault names its line, unless the host has put it in words of its own. -/
theorem Fault.namedLine_message {fault : Fault} (told : ∀ words, fault ≠ .reported words)
    {line : Int} (positive : 0 ≤ line) :
    Text.namedLine? (fault.message line) = some (Text.ofInt line) := by
  cases fault with
  | reported words => exact absurd rfl (told words)
  | wrongArity wanted given =>
    -- The only report that goes on behind the number of the line.
    let after := utf8 ", se esperaban " ++ (Text.ofNat wanted ++
      (utf8 " pero se obtuvo " ++ Text.ofNat given))
    have digits (number : Nat) : 0x6C ∉ Text.ofNat number := fun member =>
      absurd ((Text.ofNat_digits number).2 _ member) (by decide)
    have words : 0x6C ∉ utf8 ", se esperaban " ∧ 0x6C ∉ utf8 " pero se obtuvo " := by decide
    have absent : 0x6C ∉ after := by simp [after, digits, words]
    have comma : utf8 ", se esperaban " = 0x2C :: utf8 " se esperaban " := by decide
    have ends : after.takeWhile Text.isDigit = [] := by
      simp only [after, comma, List.cons_append]
      exact List.takeWhile_cons_of_neg (by decide)
    have named := Text.namedLine_append
      (utf8 "Cantidad errónea de argumentos para la función ") after positive absent ends
    simpa only [Fault.message, after, List.append_assoc] using named
  | _ => exact Text.namedLine_last _ positive

end Lengua
