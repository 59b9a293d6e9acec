import Lengua.Proofs.Lexing
import Lengua.Proofs.Lossless

/-!
# Texts put one after the other

Where does a lexeme notice what follows the text it stands in? A word, a number or a string
only where the text ends with it, a sign only where it might become a longer one, and a
semicolon never. So the tokens of a text that ends with a semicolon are found again where
more text follows, and those of the text behind it are found then, each as many lines
further down as the first text has lines.
-/

namespace Lengua

/-! ## Lexemes before more text -/

/-- A longest run that ends inside a text ends there with more text behind it, too. -/
theorem span_append {class? : UInt8 → Bool} {text : Text} (ends : text.dropWhile class? ≠ [])
    (more : Text) :
    (text ++ more).takeWhile class? = text.takeWhile class? ∧
      (text ++ more).dropWhile class? = text.dropWhile class? ++ more := by
  have inside : ∀ byte ∈ text.takeWhile class?, class? byte = true :=
    List.all_eq_true.mp List.all_takeWhile
  have outside : ∀ byte ∈ (text.dropWhile class? ++ more).head?, class? byte = false := by
    obtain ⟨byte, rest, same⟩ := List.exists_cons_of_ne_nil ends
    have stops : ∀ byte ∈ (text.dropWhile class?).head?, class? byte = false :=
      Lexeme.head_dropWhile
    rw [same] at stops ⊢
    exact stops
  have spanned := Lexes.span_eq inside outside
  rwa [← List.append_assoc, List.takeWhile_append_dropWhile] at spanned

namespace Lexeme

/-- A lexeme with more text behind it. -/
def before (lexeme : Lexeme) (more : Text) : Lexeme := { lexeme with rest := lexeme.rest ++ more }

/-- A lexeme that does not notice what follows its text: there is text behind it already, or it is
a semicolon. -/
def Ends (lexeme : Lexeme) : Prop := lexeme.rest ≠ [] ∨ lexeme.kind = .semicolon

/-- A word that ends before a byte. -/
theorem word_append {text : Text} (ends : (word text).Ends) (more : Text) :
    word (text ++ more) = (word text).before more := by
  have inside : text.dropWhile isWordByte ≠ [] := by
    refine ends.resolve_right fun kind => ?_
    have table : ∀ other ∈ Kind.reserved.map Prod.snd, other ≠ .semicolon := by decide
    rcases Kind.isWord_ofWord (text.takeWhile isWordByte) with name | reserved
    · exact nomatch name.symm.trans kind
    · exact table _ reserved kind
  obtain ⟨taken, dropped⟩ := span_append inside more
  simp only [word, before, plain, taken, dropped]

/-- A number that ends before a byte. -/
theorem number_append {text : Text} (ends : (number text).Ends) (more : Text) :
    number (text ++ more) = (number text).before more := by
  have inside : text.dropWhile Text.isDigit ≠ [] := ends.resolve_right fun kind => nomatch kind
  obtain ⟨taken, dropped⟩ := span_append inside more
  simp only [number, before, plain, taken, dropped]

/-- A string that ends before a byte has its second quotation mark. -/
theorem quotation_append {quote : UInt8} {text : Text} (ends : (quotation quote text).Ends)
    (more : Text) : quotation quote (text ++ more) = (quotation quote text).before more := by
  have rest : (quotation quote text).rest ≠ [] := ends.resolve_right fun kind => by
    rw [quotation_kind] at kind
    cases kind
  have inside : text.dropWhile (· != quote) ≠ [] := by
    intro missing
    simp only [quotation, missing] at rest
    exact rest rfl
  obtain ⟨taken, dropped⟩ := span_append inside more
  obtain ⟨mark, behind, same⟩ := List.exists_cons_of_ne_nil inside
  simp only [quotation, before, taken, dropped, same, List.cons_append]

/-- A sign that ends before a byte, or a semicolon. -/
theorem sign_append {byte : UInt8} {text : Text} (legal : (sign byte text).kind ≠ .illegal)
    (ends : (sign byte text).Ends) (more : Text) :
    sign byte (text ++ more) = (sign byte text).before more := by
  cases paired : text.head?.bind (Kind.ofPair? byte) with
  | some kind =>
    obtain ⟨second, leads, -⟩ := Option.bind_eq_some_iff.mp paired
    obtain ⟨rest, rfl⟩ := List.head?_eq_some_iff.mp leads
    simp only [List.head?_cons] at paired
    simp only [sign, List.cons_append, List.head?_cons, paired, before, plain]
    rfl
  | none =>
    cases found : Kind.ofSign? byte with
    | none =>
      simp only [sign, paired, found] at legal
      exact absurd rfl legal
    | some kind =>
      have alone : (text ++ more).head?.bind (Kind.ofPair? byte) = none := by
        simp only [sign, paired, found, Ends, plain] at ends
        rcases ends with some | rfl
        · obtain ⟨second, rest, rfl⟩ := List.exists_cons_of_ne_nil some
          exact paired
        · have semicolon : byte = 0x3B := by
            have spelled : [byte] = Kind.spelling .semicolon := Kind.admits_ofSign found
            exact (List.cons.inj spelled).1
          rw [semicolon, Option.bind_eq_none_iff]
          intro next _
          simp [Kind.ofPair?]
      simp only [sign, paired, found, alone, before, plain]

/-- A lexeme that does not notice what follows its text is found before more text as well. -/
theorem first_append {byte : UInt8} {text : Text} (legal : (first byte text).kind ≠ .illegal)
    (ends : (first byte text).Ends) (more : Text) :
    first byte (text ++ more) = (first byte text).before more := by
  unfold first at legal ends ⊢
  split
  case isTrue letter =>
    rw [if_pos letter] at ends
    exact word_append ends more
  case isFalse noLetter =>
    rw [if_neg noLetter] at legal ends
    split
    case isTrue digit =>
      rw [if_pos digit] at ends
      exact number_append ends more
    case isFalse noDigit =>
      rw [if_neg noDigit] at legal ends
      split
      case isTrue quote =>
        rw [if_pos quote] at ends
        exact quotation_append ends more
      case isFalse noQuote =>
        rw [if_neg noQuote] at legal ends
        exact sign_append legal ends more

end Lexeme

/-! ## Scanners -/

/-- The same token a number of lines further down. -/
def Token.lowered (lines : Int) (token : Token) : Token := { token with line := token.line + lines }

namespace Scanner

/-- A scanner with more text behind its own. -/
def before (scanner : Scanner) (more : Text) : Scanner := ⟨scanner.rest ++ more, scanner.line⟩

/-- A scanner of the same text a number of lines further down. -/
def lowered (lines : Int) (scanner : Scanner) : Scanner := ⟨scanner.rest, scanner.line + lines⟩

/-- A token that does not notice what follows its text is found before more text as well. -/
theorem next_before {scanner : Scanner} (found : scanner.next.1.kind ≠ .eof)
    (legal : scanner.next.1.kind ≠ .illegal)
    (ends : scanner.next.2.rest ≠ [] ∨ scanner.next.1.kind = .semicolon) (more : Text) :
    (scanner.before more).next = (scanner.next.1, scanner.next.2.before more) := by
  cases start : scanner.rest.dropWhile isSeparator with
  | nil =>
    rw [next_of_nil start] at found
    exact absurd rfl found
  | cons byte text =>
    rw [next_of_cons start] at legal ends
    obtain ⟨taken, dropped⟩ := span_append (start ▸ List.cons_ne_nil byte text) more
    have startMore : (scanner.before more).rest.dropWhile isSeparator = byte :: (text ++ more) := by
      rw [before, dropped, start, List.cons_append]
    have line : (scanner.before more).skipSeparators.line = scanner.skipSeparators.line := by
      simp only [skipSeparators, before, taken]
    rw [next_of_cons start, next_of_cons startMore, line, Lexeme.first_append legal ends more]
    rfl

/-- A scanner further down finds the same tokens further down. -/
theorem next_lowered (lines : Int) (scanner : Scanner) :
    (scanner.lowered lines).next =
      (scanner.next.1.lowered lines, scanner.next.2.lowered lines) := by
  have line : (scanner.lowered lines).skipSeparators.line =
      scanner.skipSeparators.line + lines := by
    simp only [skipSeparators, lowered]
    omega
  cases start : scanner.rest.dropWhile isSeparator with
  | nil =>
    have startLowered : (scanner.lowered lines).rest.dropWhile isSeparator = [] := start
    rw [next_of_nil start, next_of_nil startLowered, line]
    rfl
  | cons byte text =>
    have startLowered : (scanner.lowered lines).rest.dropWhile isSeparator = byte :: text := start
    rw [next_of_cons start, next_of_cons startLowered, line]
    simp only [Token.lowered, lowered, Prod.mk.injEq, Scanner.mk.injEq, true_and]
    omega

/-! ## Runs -/

/-- Tokens that a scanner finds before more text as well: none is illegal, and the last one, behind
which the text may end, is a semicolon. -/
theorem Yields.before {scanner last : Scanner} {tokens : List Token} {semicolon : Token}
    (yields : scanner.Yields (tokens ++ [semicolon]) last)
    (legal : ∀ token ∈ tokens ++ [semicolon], token.kind ≠ .illegal)
    (kind : semicolon.kind = .semicolon) (more : Text) :
    (scanner.before more).Yields (tokens ++ [semicolon]) (last.before more) := by
  induction tokens generalizing scanner with
  | nil =>
    obtain ⟨rfl, found, rest⟩ := yields.uncons
    obtain rfl : scanner.next.2 = last := (Prod.mk.inj rest.pulled).2
    have next := next_before found (legal _ List.mem_cons_self) (.inr kind) more
    have longer : (scanner.before more).Yields [(scanner.before more).next.1]
        (scanner.before more).next.2 := .cons (by rwa [next]) (.nil _)
    rwa [next] at longer
  | cons token tokens ih =>
    obtain ⟨rfl, found, rest⟩ := yields.uncons
    replace rest : scanner.next.2.Yields (tokens ++ [semicolon]) last := rest
    -- More tokens follow, and each takes at least one byte.
    have behind : scanner.next.2.rest ≠ [] := by
      intro empty
      have few := rest.length_le
      rw [empty, List.length_append] at few
      simp at few
    have next := next_before found (legal _ List.mem_cons_self) (.inl behind) more
    have later := ih rest fun token member => legal token (List.mem_cons_of_mem _ member)
    have longer : (scanner.before more).Yields
        ((scanner.before more).next.1 :: (tokens ++ [semicolon])) (last.before more) :=
      .cons (by rwa [next]) (by rwa [next])
    rwa [next] at longer

/-- A scanner further down finds the same tokens further down. -/
theorem Yields.lowered {scanner last : Scanner} {tokens : List Token}
    (yields : scanner.Yields tokens last) (lines : Int) :
    (scanner.lowered lines).Yields (tokens.map (Token.lowered lines)) (last.lowered lines) := by
  induction tokens generalizing scanner with
  | nil =>
    obtain rfl : scanner = last := (Prod.mk.inj yields.pulled).2
    exact .nil _
  | cons token tokens ih =>
    obtain ⟨rfl, found, rest⟩ := yields.uncons
    have next := next_lowered lines scanner
    have longer : (scanner.lowered lines).Yields
        ((scanner.lowered lines).next.1 :: tokens.map (Token.lowered lines))
        (last.lowered lines) := .cons (by rwa [next]) (by rw [next]; exact ih rest)
    rwa [next] at longer

/-- The tokens that a scanner finds on the way to the end of its text. -/
def Exhausts (scanner : Scanner) (tokens : List Token) : Prop :=
  ∃ last line, scanner.Yields tokens last ∧ last.next = (Token.eof line, ⟨[], line⟩)

namespace Exhausts

/-- The tokens of a text are those that a scanner finds in it, and one end mark. -/
theorem of_scan {source : Text} {tokens : List Token} {line : Int}
    (scanned : Token.scan source = tokens ++ [Token.eof line]) :
    (Scanner.ofText source).Exhausts tokens := by
  obtain ⟨found, last, ends, yields, ended⟩ := (Scanner.ofText source).exists_yields
  have same := (yields.scan ended).symm.trans scanned
  obtain ⟨rfl, -⟩ := List.append_inj' same rfl
  exact ⟨last, ends, yields, ended⟩

/-- The same tokens are found further down. -/
theorem lowered {scanner : Scanner} {tokens : List Token} (exhausts : scanner.Exhausts tokens)
    (lines : Int) : (scanner.lowered lines).Exhausts (tokens.map (Token.lowered lines)) := by
  obtain ⟨last, line, yields, ended⟩ := exhausts
  refine ⟨last.lowered lines, line + lines, yields.lowered lines, ?_⟩
  rw [next_lowered, ended]
  rfl

/-- The same tokens are found behind separators. -/
theorem separated {gap text : Text} {line : Int} {tokens : List Token}
    (blank : ∀ byte ∈ gap, isSeparator byte = true)
    (exhausts : (Scanner.mk text (line + Text.lineFeeds gap)).Exhausts tokens) :
    (Scanner.mk (gap ++ text) line).Exhausts tokens := by
  obtain ⟨last, ends, yields, ended⟩ := exhausts
  have same := next_separated blank text line
  cases tokens with
  | nil =>
    obtain rfl : Scanner.mk text (line + Text.lineFeeds gap) = last :=
      (Prod.mk.inj yields.pulled).2
    exact ⟨_, ends, .nil _, same.trans ended⟩
  | cons token tokens =>
    obtain ⟨rfl, found, rest⟩ := yields.uncons
    rw [← same] at found rest ⊢
    exact ⟨last, ends, rest.cons found, ended⟩

/-- What is found in a text that ends with a semicolon, and behind it in another text on a line of
its own. -/
theorem joined {first second : Text} {tokens others : List Token} {semicolon : Token}
    (exhausts : (Scanner.ofText first).Exhausts (tokens ++ [semicolon]))
    (legal : ∀ token ∈ tokens ++ [semicolon], token.kind ≠ .illegal)
    (kind : semicolon.kind = .semicolon) (behind : (Scanner.ofText second).Exhausts others) :
    ∃ lines, (Scanner.ofText (first ++ (utf8 "\n" ++ second))).Exhausts
      (tokens ++ [semicolon] ++ others.map (Token.lowered lines)) := by
  obtain ⟨last, line, yields, ended⟩ := exhausts
  obtain ⟨blank, -⟩ := blank_of_ended ended
  have gap : ∀ byte ∈ last.rest ++ utf8 "\n", isSeparator byte = true := by
    intro byte member
    rcases List.mem_append.mp member with member | member
    · exact blank byte member
    · rw [List.mem_singleton.mp member]
      rfl
  let lines := last.line + Text.lineFeeds (last.rest ++ utf8 "\n") - 1
  have start : (Scanner.ofText second).lowered lines =
      ⟨second, last.line + Text.lineFeeds (last.rest ++ utf8 "\n")⟩ := by
    simp only [ofText, Scanner.lowered, lines, Scanner.mk.injEq, true_and]
    omega
  have later := behind.lowered lines
  rw [start] at later
  obtain ⟨final, ends, follows, finished⟩ := separated gap later
  rw [List.append_assoc] at follows
  exact ⟨lines, final, ends, (yields.before legal kind _).append follows, finished⟩

end Exhausts

end Scanner

end Lengua
