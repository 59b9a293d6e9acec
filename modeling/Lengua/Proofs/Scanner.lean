import Lengua.Token.Scanner

/-!
# Runs of a scanner

A scanner finds a token as long as something other than separators is left, and each
token takes at least one byte. So after at most as many tokens as there are bytes it
reaches the end of the text, where it answers with the same end mark for ever.
`Scanner.Yields` says which tokens a scanner finds on the way to another; the tokens of
a whole text, and any longer run of the scanner, are those it yields followed by end marks.
-/

namespace Lengua

/-- The line feeds of two texts put together. -/
@[simp] theorem Text.lineFeeds_append (first second : Text) :
    Text.lineFeeds (first ++ second) = Text.lineFeeds first + Text.lineFeeds second :=
  List.count_append

/-- The kind of a word is not that of the end mark. -/
theorem Kind.ofWord_ne_eof (word : Text) : Kind.ofWord word ≠ .eof := by
  have listed : ∀ entry ∈ Kind.reserved, entry.2 ≠ .eof := by decide
  unfold Kind.ofWord
  cases found : Kind.reserved.lookup word with
  | none => simp
  | some kind =>
    obtain ⟨before, after, parted, -⟩ := List.lookup_eq_some_iff.mp found
    exact listed (word, kind) (by simp [parted])

/-- The kind of a sign is not that of the end mark. -/
theorem Kind.ofSign_ne_eof (byte : UInt8) : Kind.ofSign? byte ≠ some .eof := by
  fun_cases Kind.ofSign? byte <;> simp

/-- The kind of a sign of two bytes is not that of the end mark. -/
theorem Kind.ofPair_ne_eof (first second : UInt8) : Kind.ofPair? first second ≠ some .eof := by
  fun_cases Kind.ofPair? first second <;> simp

namespace Lexeme

/-- A quotation is a string. -/
@[simp] theorem quotation_kind (quote : UInt8) (text : Text) :
    (quotation quote text).kind = .string := by
  unfold quotation
  dsimp only
  split <;> rfl

/-- No lexeme is an end mark. -/
theorem first_kind_ne_eof (byte : UInt8) (text : Text) : (first byte text).kind ≠ .eof := by
  unfold first
  split
  · exact Kind.ofWord_ne_eof _
  split
  · simp [number, plain]
  split
  · simp
  unfold sign
  split
  case h_1 kind found =>
    obtain ⟨second, -, paired⟩ := Option.bind_eq_some_iff.mp found
    rintro rfl
    exact Kind.ofPair_ne_eof byte second paired
  case h_2 =>
    split
    case h_1 kind found =>
      rintro rfl
      exact Kind.ofSign_ne_eof byte found
    case h_2 => simp [plain]

end Lexeme

namespace Scanner

/-! ## One token -/

/-- At the end of the text a scanner answers with the end mark and stays there. -/
@[simp] theorem next_end (line : Int) :
    (Scanner.mk [] line).next = (Token.eof line, ⟨[], line⟩) := by
  simp [next, skipSeparators, Text.lineFeeds]

/-- Separators before a text change nothing but its line. -/
theorem next_separated {gap : Text} (blank : ∀ byte ∈ gap, isSeparator byte = true) (text : Text)
    (line : Int) : (Scanner.mk (gap ++ text) line).next =
      (Scanner.mk text (line + Text.lineFeeds gap)).next := by
  have start : (Scanner.mk (gap ++ text) line).skipSeparators =
      (Scanner.mk text (line + Text.lineFeeds gap)).skipSeparators := by
    simp only [skipSeparators, List.dropWhile_append_of_pos blank,
      List.takeWhile_append_of_pos blank, Text.lineFeeds_append, Scanner.mk.injEq, true_and]
    omega
  rw [next, next, start]

/-- The next token where something other than separators is left. -/
theorem next_of_cons {scanner : Scanner} {byte : UInt8} {text : Text}
    (found : scanner.rest.dropWhile isSeparator = byte :: text) :
    scanner.next = (⟨(Lexeme.first byte text).kind, (Lexeme.first byte text).literal,
      scanner.skipSeparators.line⟩, ⟨(Lexeme.first byte text).rest,
        scanner.skipSeparators.line + Text.lineFeeds (Lexeme.first byte text).spelling⟩) := by
  have start : scanner.skipSeparators.rest = byte :: text := found
  unfold next
  dsimp only
  split
  case h_1 blank => simp [start] at blank
  case h_2 other rest same =>
    obtain ⟨rfl, rfl⟩ := List.cons.inj (start.symm.trans same)
    rfl

/-- The next token where nothing but separators is left. -/
theorem next_of_nil {scanner : Scanner} (blank : scanner.rest.dropWhile isSeparator = []) :
    scanner.next = (Token.eof scanner.skipSeparators.line, ⟨[], scanner.skipSeparators.line⟩) := by
  have start : scanner.skipSeparators = ⟨[], scanner.skipSeparators.line⟩ := by
    rw [skipSeparators, blank]
  rw [start]
  unfold next
  rw [start]

/-- Either the scanner is at the end of the text, or it finds a token and the text gets shorter. -/
theorem next_cases (scanner : Scanner) :
    (∃ line, scanner.next = (Token.eof line, ⟨[], line⟩)) ∨
      scanner.next.1.kind ≠ .eof ∧ scanner.next.2.rest.length < scanner.rest.length := by
  cases start : scanner.rest.dropWhile isSeparator with
  | nil => exact .inl ⟨_, next_of_nil start⟩
  | cons byte text =>
    have shorter := Lexeme.first_rest_length_lt byte text
    have suffix : (scanner.rest.dropWhile isSeparator).length ≤ scanner.rest.length :=
      (List.dropWhile_suffix isSeparator).length_le
    rw [start, List.length_cons] at suffix
    rw [next_of_cons start]
    exact .inr ⟨Lexeme.first_kind_ne_eof byte text, Nat.lt_of_lt_of_le shorter suffix⟩

/-! ## Runs -/

/-- A run that finds a token and then others. -/
theorem pull_succ (count : Nat) (scanner : Scanner) :
    scanner.pull (count + 1) =
      (scanner.next.1 :: (scanner.next.2.pull count).1, (scanner.next.2.pull count).2) := rfl

/-- Tokens found in turn are those of the first part of a run and then those of the second. -/
theorem pull_add (first second : Nat) (scanner : Scanner) :
    scanner.pull (first + second) =
      ((scanner.pull first).1 ++ ((scanner.pull first).2.pull second).1,
        ((scanner.pull first).2.pull second).2) := by
  induction first generalizing scanner with
  | zero => simp [pull]
  | succ first ih => simp only [Nat.succ_add, pull_succ, ih, List.cons_append]

/-- At the end of the text a scanner finds nothing but end marks. -/
theorem pull_end (count : Nat) (line : Int) :
    (Scanner.mk [] line).pull count = (List.replicate count (Token.eof line), ⟨[], line⟩) := by
  induction count with
  | zero => rfl
  | succ count ih => rw [pull_succ, next_end, ih, List.replicate_succ]

/-- A scanner finds tokens, none of them an end mark, and is another scanner then. -/
structure Yields (scanner : Scanner) (tokens : List Token) (last : Scanner) : Prop where
  /-- The tokens are found in turn. -/
  pulled : scanner.pull tokens.length = (tokens, last)
  /-- The text does not end before them. -/
  endless : ∀ token ∈ tokens, token.kind ≠ .eof

/-- A scanner finds no tokens on the way to itself. -/
theorem Yields.nil (scanner : Scanner) : scanner.Yields [] scanner := ⟨rfl, by simp⟩

/-- A token found before others. -/
theorem Yields.cons {scanner last : Scanner} {tokens : List Token}
    (found : scanner.next.1.kind ≠ .eof) (rest : scanner.next.2.Yields tokens last) :
    scanner.Yields (scanner.next.1 :: tokens) last := by
  constructor
  · rw [List.length_cons, pull_succ, rest.pulled]
  · intro token member
    rcases List.mem_cons.mp member with rfl | member
    · exact found
    · exact rest.endless token member

/-- The first of the tokens a scanner finds, and the others. -/
theorem Yields.uncons {scanner last : Scanner} {token : Token} {tokens : List Token}
    (yields : scanner.Yields (token :: tokens) last) :
    scanner.next.1 = token ∧ token.kind ≠ .eof ∧ scanner.next.2.Yields tokens last := by
  have pulled := yields.pulled
  rw [List.length_cons, pull_succ] at pulled
  obtain ⟨same, later⟩ := Prod.mk.inj pulled
  obtain ⟨found, others⟩ := List.cons.inj same
  exact ⟨found, yields.endless token List.mem_cons_self, Prod.ext others later,
    fun other member => yields.endless other (List.mem_cons_of_mem token member)⟩

/-- A scanner finds at most as many tokens as it has bytes. -/
theorem Yields.length_le {scanner last : Scanner} {tokens : List Token}
    (yields : scanner.Yields tokens last) : tokens.length ≤ scanner.rest.length := by
  induction tokens generalizing scanner with
  | nil => exact Nat.zero_le _
  | cons token tokens ih =>
    obtain ⟨rfl, found, rest⟩ := yields.uncons
    have fewer := ih rest
    rcases scanner.next_cases with ⟨line, ended⟩ | ⟨-, shorter⟩
    · rw [ended] at found
      exact absurd rfl found
    · rw [List.length_cons]
      omega

/-- Every scanner comes to the end of its text. -/
theorem exists_yields (scanner : Scanner) :
    ∃ tokens last line, scanner.Yields tokens last ∧ last.next = (Token.eof line, ⟨[], line⟩) := by
  rcases scanner.next_cases with ⟨line, ended⟩ | ⟨found, shorter⟩
  · exact ⟨[], scanner, line, .nil scanner, ended⟩
  · obtain ⟨tokens, last, line, rest, ended⟩ := exists_yields scanner.next.2
    exact ⟨_, last, line, rest.cons found, ended⟩
termination_by scanner.rest.length

/-- The tokens up to the end mark are those on the way to the end of the text. -/
theorem Yields.drain {scanner last : Scanner} {tokens : List Token} {line : Int}
    (yields : scanner.Yields tokens last) (ended : last.next = (Token.eof line, ⟨[], line⟩))
    {bound : Nat} (enough : tokens.length < bound) :
    scanner.drain bound = tokens ++ [Token.eof line] := by
  induction tokens generalizing scanner bound with
  | nil =>
    obtain ⟨bound, rfl⟩ := Nat.exists_eq_succ_of_ne_zero (Nat.ne_of_gt enough)
    obtain rfl : scanner = last := (Prod.mk.inj yields.pulled).2
    simp [Scanner.drain, ended, Token.eof]
  | cons token tokens ih =>
    obtain ⟨bound, rfl⟩ := Nat.exists_eq_succ_of_ne_zero (Nat.ne_of_gt (Nat.zero_lt_of_lt enough))
    obtain ⟨rfl, found, rest⟩ := yields.uncons
    rw [Scanner.drain]
    dsimp only
    rw [if_neg found, ih rest (Nat.lt_of_succ_lt_succ enough), List.cons_append]

/-- Beyond the end of the text a run finds end marks. -/
theorem Yields.pull_add {scanner last : Scanner} {tokens : List Token} {line : Int}
    (yields : scanner.Yields tokens last) (ended : last.next = (Token.eof line, ⟨[], line⟩))
    (count : Nat) :
    (scanner.pull (tokens.length + count)).1 = tokens ++ List.replicate count (Token.eof line) := by
  rw [Scanner.pull_add, yields.pulled]
  cases count with
  | zero => simp [pull]
  | succ count => rw [pull_succ, ended, pull_end, List.replicate_succ]

end Scanner

/-- The tokens of a text are those on the way to its end, and one end mark. -/
theorem Scanner.Yields.scan {source : Text} {last : Scanner} {tokens : List Token} {line : Int}
    (yields : (Scanner.ofText source).Yields tokens last)
    (ended : last.next = (Token.eof line, ⟨[], line⟩)) :
    Token.scan source = tokens ++ [Token.eof line] :=
  yields.drain ended (Nat.lt_succ_of_le yields.length_le)

/-- The tokens of a text are some that are no end marks, at most as many as it has bytes, and
one end mark; a scanner of the text finds the same, the end mark again and again. -/
theorem Token.exists_scan_eq (source : Text) :
    ∃ tokens line, Token.scan source = tokens ++ [Token.eof line] ∧
      (∀ token ∈ tokens, token.kind ≠ .eof) ∧ tokens.length ≤ source.length ∧
      ∀ count, ((Scanner.ofText source).pull (tokens.length + count)).1 =
        tokens ++ List.replicate count (Token.eof line) := by
  obtain ⟨tokens, last, line, yields, ended⟩ := (Scanner.ofText source).exists_yields
  exact ⟨tokens, line, yields.scan ended, yields.endless, yields.length_le, yields.pull_add ended⟩

end Lengua
