import Lengua.Proofs.Lexing
import Lengua.Proofs.Lossless

/-!
# Tokens written out again

The tokens of a text hold all that there is to say about it but for its separators: written out
one by one, with any separators between them, they are found again, each on the line that it now
stands on. A string is written between quotation marks of a sort that does not occur in it, whether
or not its own were of this sort.

A separator stops everything. It continues neither a word nor a number, it makes no sign longer, and
it is no continuation byte, so that stray bytes cannot become a character (`Lexes.piece`).
-/

namespace Lengua

/-- A token is written out on its own: a string between quotation marks that do not occur in it,
and everything else by its literal. -/
def Token.WrittenOut (token : Token) (spelling : Text) : Prop :=
  if token.kind = .string then
    ∃ quote, (quote = Text.doubleQuote ∨ quote = Text.singleQuote) ∧ quote ∉ token.literal ∧
      spelling = quote :: token.literal ++ [quote]
  else spelling = token.literal

/-- All but strings are written out by their literals. -/
theorem Token.WrittenOut.plain {token : Token} {spelling : Text}
    (written : token.WrittenOut spelling) (other : token.kind ≠ .string) :
    spelling = token.literal := by
  rwa [Token.WrittenOut, if_neg other] at written

/-- A separator, if anything, stands first. -/
def Text.Parted (rest : Text) : Prop := ∀ byte ∈ rest.head?, isSeparator byte = true

/-- A separator continues no word and no character, and makes no sign longer. -/
theorem isSeparator_apart {byte : UInt8} (blank : isSeparator byte = true) :
    isWordByte byte = false ∧ Text.payload? byte = none ∧ byte ≠ 0x3D := by
  simp only [isSeparator, Bool.or_eq_true, beq_iff_eq, Text.space, Text.newline] at blank
  rcases blank with ((rfl | rfl) | rfl) | rfl <;> decide

/-! ## One token before a separator -/

/-- A character or a stray byte that the language has no use for, before a separator. -/
theorem Lexes.piece {byte : UInt8} {others old rest : Text} (solid : isSeparator byte = false)
    (isSign : ∀ text, Lexeme.first byte text = Lexeme.sign byte text)
    (none : Kind.ofSign? byte = none) (isPiece : Text.IsPiece (byte :: others) old)
    (parted : rest.Parted) :
    Lexes (byte :: others ++ rest) [(.illegal, byte :: others)] rest := by
  have width : Text.pieceWidth (byte :: others ++ rest) = (byte :: others).length :=
    Text.pieceWidth_append isPiece fun next leads => (isSeparator_apart (parted next leads)).2.1
  have alone : (others ++ rest).head?.bind (Kind.ofPair? byte) = .none := by
    rw [Option.bind_eq_none_iff]
    exact fun second _ => Kind.ofPair_of_ofSign none second
  have lexeme : Lexeme.first byte (others ++ rest) = .plain .illegal (byte :: others) rest := by
    rw [isSign, Lexeme.sign, alone]
    simp only [none, ← List.cons_append]
    rw [width, List.take_left, List.drop_left]
  rw [List.cons_append]
  apply first solid
  · rw [lexeme]
    rfl
  · rw [lexeme]
    rfl

/-- A token that is found again wherever it is written out before a separator or at the end. -/
def Token.Recurs (token : Token) : Prop :=
  ∀ spelling rest, token.WrittenOut spelling → rest.Parted →
    (∃ byte others, spelling = byte :: others ∧ isSeparator byte = false) ∧
      Lexes (spelling ++ rest) [token.shape] rest

namespace Lexeme

/-- Words recur. -/
theorem word_recurs {byte : UInt8} (letter : Text.isLetter byte = true) (text : Text) (line : Int) :
    ((word (byte :: text)).token line).Recurs := by
  intro spelling rest written parted
  have noString : ((word (byte :: text)).token line).kind ≠ .string :=
    (Kind.isWord_ofWord _).apart.1
  have begins : (byte :: text).takeWhile isWordByte = byte :: text.takeWhile isWordByte :=
    List.takeWhile_cons_of_pos (by simp [isWordByte, letter])
  have isWord : Text.IsWord ((byte :: text).takeWhile isWordByte) :=
    ⟨byte, _, begins, letter, List.all_eq_true.mp List.all_takeWhile⟩
  rw [written.plain noString]
  exact ⟨⟨byte, _, begins, Lexes.letter_solid letter⟩,
    .word isWord fun next leads => (isSeparator_apart (parted next leads)).1⟩

/-- Numbers recur. -/
theorem number_recurs {byte : UInt8} (digit : Text.isDigit byte = true) (text : Text)
    (line : Int) : ((number (byte :: text)).token line).Recurs := by
  intro spelling rest written parted
  have begins : (byte :: text).takeWhile Text.isDigit = byte :: text.takeWhile Text.isDigit :=
    List.takeWhile_cons_of_pos digit
  have isNumber : Text.IsNumber ((byte :: text).takeWhile Text.isDigit) :=
    ⟨begins ▸ List.cons_ne_nil _ _, List.all_eq_true.mp List.all_takeWhile⟩
  rw [written.plain (fun string => nomatch string)]
  exact ⟨⟨byte, _, begins, (Lexes.digit_solid digit).2⟩,
    .number isNumber fun next leads => (isSeparator_apart (parted next leads)).1⟩

/-- Strings recur. -/
theorem quotation_recurs (quote : UInt8) (text : Text) (line : Int) :
    ((quotation quote text).token line).Recurs := by
  intro spelling rest written parted
  have string : ((quotation quote text).token line).kind = .string := quotation_kind quote text
  rw [Token.WrittenOut, if_pos string] at written
  obtain ⟨mark, isMark, missing, rfl⟩ := written
  refine ⟨⟨mark, _, rfl, ?_⟩, ?_⟩
  · rcases isMark with rfl | rfl <;> decide
  · rw [Token.shape, string]
    exact .quoted isMark missing rest

/-- Signs recur, and so do the characters and stray bytes that are none. -/
theorem sign_recurs {byte : UInt8} (solid : isSeparator byte = false)
    (isSign : ∀ text, first byte text = sign byte text) (text : Text) (line : Int) :
    ((sign byte text).token line).Recurs := by
  intro spelling rest written parted
  cases found : Kind.ofSign? byte with
  | none =>
    have alone : text.head?.bind (Kind.ofPair? byte) = none := by
      rw [Option.bind_eq_none_iff]
      exact fun second _ => Kind.ofPair_of_ofSign found second
    have lexeme : sign byte text = plain .illegal
        ((byte :: text).take (Text.pieceWidth (byte :: text)))
        ((byte :: text).drop (Text.pieceWidth (byte :: text))) := by
      rw [sign, alone]
      simp only [found]
    have isPiece := Text.isPiece_take byte text
    obtain ⟨width, wide⟩ := Nat.exists_eq_succ_of_ne_zero
      (Nat.ne_of_gt (Text.pieceWidth_pos (byte :: text)))
    rw [wide, List.take_succ_cons] at lexeme isPiece
    rw [lexeme] at written ⊢
    rw [written.plain (by rintro ⟨⟩)]
    exact ⟨⟨byte, _, rfl, solid⟩, .piece solid isSign found isPiece parted⟩
  | some single =>
    cases paired : text.head?.bind (Kind.ofPair? byte) with
    | none =>
      have lexeme : sign byte text = plain single [byte] text := by
        rw [sign, paired]
        simp only [found]
      rw [lexeme] at written ⊢
      rw [written.plain (Kind.apart_ofSign found).2.1]
      refine ⟨⟨byte, [], rfl, solid⟩, .sign found fun next leads => ?_⟩
      simp [Kind.ofPair?, (isSeparator_apart (parted next leads)).2.2]
    | some kind =>
      obtain ⟨second, leads, joined⟩ := Option.bind_eq_some_iff.mp paired
      obtain ⟨behind, rfl⟩ := List.head?_eq_some_iff.mp leads
      have lexeme : sign byte (second :: behind) = plain kind [byte, second] behind := by
        rw [sign, paired]
        rfl
      rw [lexeme] at written ⊢
      rw [written.plain (Kind.apart_ofPair joined).2.1]
      exact ⟨⟨byte, [second], rfl, solid⟩, .pair found joined rest⟩

/-- Every lexeme recurs. -/
theorem first_recurs {byte : UInt8} (solid : isSeparator byte = false) (text : Text) (line : Int) :
    ((first byte text).token line).Recurs := by
  by_cases letter : Text.isLetter byte = true
  · have lexeme (text : Text) : first byte text = word (byte :: text) := if_pos letter
    rw [lexeme]
    exact word_recurs letter text line
  by_cases digit : Text.isDigit byte = true
  · have lexeme (text : Text) : first byte text = number (byte :: text) := by
      rw [first, if_neg letter, if_pos digit]
    rw [lexeme]
    exact number_recurs digit text line
  by_cases quote : (byte == Text.doubleQuote || byte == Text.singleQuote) = true
  · have lexeme (text : Text) : first byte text = quotation byte text := by
      rw [first, if_neg letter, if_neg digit, if_pos quote]
    rw [lexeme]
    exact quotation_recurs byte text line
  · have lexeme (text : Text) : first byte text = sign byte text := by
      rw [first, if_neg letter, if_neg digit, if_neg quote]
    rw [lexeme]
    exact sign_recurs solid lexeme text line

end Lexeme

/-- Every token of a text recurs. -/
theorem Scanner.next_recurs {scanner : Scanner} (found : scanner.next.1.kind ≠ .eof) :
    scanner.next.1.Recurs := by
  cases start : scanner.rest.dropWhile isSeparator with
  | nil =>
    rw [next_of_nil start] at found
    exact absurd rfl found
  | cons byte text =>
    have solid : isSeparator byte = false :=
      Lexeme.head_dropWhile byte (congrArg List.head? start)
    rw [next_of_cons start]
    exact Lexeme.first_recurs solid text _

/-- All tokens that a scanner finds recur. -/
theorem Scanner.Yields.recur {scanner last : Scanner} {tokens : List Token}
    (yields : scanner.Yields tokens last) : ∀ token ∈ tokens, token.Recurs := by
  induction tokens generalizing scanner with
  | nil => simp
  | cons token tokens ih =>
    obtain ⟨rfl, found, rest⟩ := yields.uncons
    exact List.forall_mem_cons.mpr ⟨scanner.next_recurs found, ih rest⟩

/-! ## Lines -/

/-- A token that begins a text is found on the line of its first byte, and the line feeds in its
spelling count for what follows. -/
theorem Lexes.next {byte : UInt8} {others rest : Text} {shape : Shape}
    (solid : isSeparator byte = false) (found : Lexes (byte :: others ++ rest) [shape] rest)
    (line : Int) :
    shape.1 ≠ .eof ∧ (Scanner.mk (byte :: others ++ rest) line).next =
      (⟨shape.1, shape.2, line⟩, ⟨rest, line + Text.lineFeeds (byte :: others)⟩) := by
  obtain ⟨tokens, last, yields, shaped⟩ := found line
  obtain ⟨token, rfl, rfl⟩ := List.map_eq_singleton_iff.mp shaped
  obtain ⟨same, going, none⟩ := yields.uncons
  have after : (Scanner.mk (byte :: others ++ rest) line).next.2 = ⟨rest, last⟩ :=
    (Prod.mk.inj none.pulled).2
  have start : (Scanner.mk (byte :: others ++ rest) line).rest.dropWhile isSeparator =
      byte :: (others ++ rest) := List.dropWhile_cons_of_neg (by simp [solid])
  have here : (Scanner.mk (byte :: others ++ rest) line).skipSeparators.line = line := by
    simp [Scanner.skipSeparators, solid, Text.lineFeeds]
  rw [Scanner.next_of_cons start, here] at same after ⊢
  obtain ⟨ends, -⟩ := Scanner.mk.inj after
  have spelling : (Lexeme.first byte (others ++ rest)).spelling = byte :: others := by
    have whole := Lexeme.first_spelling_append_rest byte (others ++ rest)
    rw [ends, ← List.cons_append] at whole
    exact List.append_cancel_right whole
  refine ⟨going, ?_⟩
  rw [ends, spelling, Token.shape, ← same]

namespace Placed

/-- Tokens with the lines they have in their places, in a text that starts on a line. -/
def relined (line : Int) (places : List Placed) : List Token :=
  places.mapIdx fun index place =>
    { place.token with line := line + Text.lineFeeds (joined (places.take index) place.gap) }

/-- The first token is on the line where its gap ends, and the others behind the first place. -/
theorem relined_cons (line : Int) (place : Placed) (places : List Placed) :
    relined line (place :: places) =
      { place.token with line := line + Text.lineFeeds place.gap } ::
        relined (line + Text.lineFeeds place.text) places := by
  have behind (before : List Placed) (gap : Text) :
      line + Text.lineFeeds (joined (place :: before) gap) =
        line + Text.lineFeeds place.text + Text.lineFeeds (joined before gap) := by
    rw [joined_cons, Text.lineFeeds_append]
    push_cast
    omega
  simp only [relined, List.mapIdx_cons, List.take_zero, List.take_succ_cons, behind]
  rfl

/-- Tokens that recur, written out in places with separators between them. -/
structure SetOut (places : List Placed) : Prop where
  /-- The tokens recur. -/
  recur : ∀ place ∈ places, place.token.Recurs
  /-- They are written out. -/
  written : ∀ place ∈ places, place.token.WrittenOut place.spelling
  /-- Only separators stand before them. -/
  gaps : ∀ place ∈ places, ∀ byte ∈ place.gap, isSeparator byte = true
  /-- All but the first are behind at least one separator. -/
  apart : ∀ place ∈ places.tail, place.gap ≠ []

/-- The places behind the first one. -/
theorem SetOut.tail {place : Placed} {places : List Placed} (out : SetOut (place :: places)) :
    SetOut places where
  recur other member := out.recur other (List.mem_cons_of_mem place member)
  written other member := out.written other (List.mem_cons_of_mem place member)
  gaps other member := out.gaps other (List.mem_cons_of_mem place member)
  apart other member := out.apart other (List.mem_of_mem_tail member)

/-- A separator stands behind the first place, or nothing. -/
theorem SetOut.parted {place : Placed} {places : List Placed} (out : SetOut (place :: places))
    {last : Text} (blank : ∀ byte ∈ last, isSeparator byte = true) :
    (joined places last).Parted := by
  intro byte leads
  cases places with
  | nil => exact blank byte (List.mem_of_mem_head? leads)
  | cons next places =>
    obtain ⟨separator, gap, same⟩ :=
      List.exists_cons_of_ne_nil (out.apart next List.mem_cons_self)
    have begins : (joined (next :: places) last).head? = some separator := by
      rw [joined_cons, text, same]
      rfl
    obtain rfl := Option.some.inj (begins.symm.trans leads)
    exact out.gaps next (by simp) separator (same ▸ List.mem_cons_self)

/-- Tokens that are set out in places are found there, up to the separators behind the last. -/
theorem SetOut.yields {places : List Placed} (out : SetOut places) {last : Text}
    (blank : ∀ byte ∈ last, isSeparator byte = true) (line : Int) :
    (Scanner.mk (joined places last) line).Yields (relined line places)
      ⟨last, line + Text.lineFeeds (joined places [])⟩ := by
  induction places generalizing line with
  | nil => simpa [joined, relined, Text.lineFeeds] using Scanner.Yields.nil ⟨last, line⟩
  | cons place places ih =>
    have written := out.written place List.mem_cons_self
    obtain ⟨⟨byte, others, spelled, solid⟩, lexes⟩ :=
      out.recur place List.mem_cons_self _ _ written (out.parted blank)
    rw [spelled] at lexes
    obtain ⟨going, next⟩ := lexes.next solid (line + Text.lineFeeds place.gap)
    have after : line + Text.lineFeeds place.gap + Text.lineFeeds (byte :: others) =
        line + Text.lineFeeds place.text := by
      rw [text, spelled, Text.lineFeeds_append]
      push_cast
      omega
    have found : (Scanner.mk (joined (place :: places) last) line).next =
        ({ place.token with line := line + Text.lineFeeds place.gap },
          ⟨joined places last, line + Text.lineFeeds place.text⟩) := by
      rw [joined_cons, text, List.append_assoc,
        Scanner.next_separated (out.gaps place List.mem_cons_self), ← text, spelled, next, after]
      rfl
    have ends : line + Text.lineFeeds (joined (place :: places) []) =
        line + Text.lineFeeds place.text + Text.lineFeeds (joined places []) := by
      rw [joined_cons, Text.lineFeeds_append]
      push_cast
      omega
    have later := ih out.tail (line + Text.lineFeeds place.text)
    have longer : (Scanner.mk (joined (place :: places) last) line).Yields
        ((Scanner.mk (joined (place :: places) last) line).next.1 ::
          relined (line + Text.lineFeeds place.text) places)
        ⟨last, line + Text.lineFeeds place.text + Text.lineFeeds (joined places [])⟩ :=
      .cons (by rw [found]; exact going) (by rw [found]; exact later)
    rwa [found, ← relined_cons, ← ends] at longer

end Placed

/-- A genuine token can be written out. -/
theorem Token.Genuine.exists_writtenOut {token : Token} (genuine : token.Genuine) :
    ∃ spelling, token.WrittenOut spelling := by
  unfold Token.WrittenOut
  split
  case isFalse => exact ⟨token.literal, rfl⟩
  case isTrue string =>
    rw [Token.Genuine, string] at genuine
    rcases genuine with missing | missing
    · exact ⟨_, Text.doubleQuote, .inl rfl, missing, rfl⟩
    · exact ⟨_, Text.singleQuote, .inr rfl, missing, rfl⟩

/-- The tokens of a text can all be written out. Written out again with any separators before and
behind them, at least one between any two, they are found again, each on the line that it stands
on now, and behind them one end mark on the last line. -/
theorem Token.scan_respelled (source : Text) :
    (∀ token ∈ Token.scan source, ∃ spelling, token.WrittenOut spelling) ∧
      ∀ (places : List Placed) (mark : Token) (last : Text),
        Token.scan source = places.map Placed.token ++ [mark] →
        (∀ place ∈ places, place.token.WrittenOut place.spelling) →
        (∀ place ∈ places, ∀ byte ∈ place.gap, isSeparator byte = true) →
        (∀ place ∈ places.tail, place.gap ≠ []) →
        (∀ byte ∈ last, isSeparator byte = true) →
        Token.scan (Placed.joined places last) = Placed.relined 1 places ++
          [Token.eof (1 + Text.lineFeeds (Placed.joined places last))] := by
  refine ⟨fun token member => (Token.scan_genuine source token member).exists_writtenOut, ?_⟩
  intro places mark last scanned written gaps apart blank
  have recur : ∀ place ∈ places, place.token.Recurs := by
    obtain ⟨tokens, final, line, yields, ended⟩ := (Scanner.ofText source).exists_yields
    obtain ⟨rfl, -⟩ := List.append_inj' ((yields.scan ended).symm.trans scanned) rfl
    exact fun place member => yields.recur place.token (List.mem_map_of_mem member)
  have yields := Placed.SetOut.yields ⟨recur, written, gaps, apart⟩ blank 1
  have total : (1 : Int) + Text.lineFeeds (Placed.joined places last) =
      1 + Text.lineFeeds (Placed.joined places []) + Text.lineFeeds last := by
    rw [Placed.joined, Placed.joined, List.append_nil, Text.lineFeeds_append]
    omega
  have ended := Scanner.next_separated blank [] (1 + Text.lineFeeds (Placed.joined places []))
  rw [List.append_nil, Scanner.next_end, ← total] at ended
  exact yields.scan ended

/-- Two stray bytes that would continue each other, signs, a number and a word without a space
between them, and a string that the text does not close. -/
theorem Token.scan_respelled_crowded :
    let places : List Placed :=
      [⟨utf8 "\n", [0xE2], ⟨.illegal, [0xE2], 1⟩⟩, ⟨utf8 " ", [0x82], ⟨.illegal, [0x82], 1⟩⟩,
        ⟨utf8 "\t", utf8 "==", ⟨.equal, utf8 "==", 1⟩⟩, ⟨utf8 " ", utf8 "=", ⟨.assign, utf8 "=", 1⟩⟩,
        ⟨utf8 "\r\n", utf8 "9", ⟨.int, utf8 "9", 1⟩⟩, ⟨utf8 " ", utf8 "si", ⟨.ifWord, utf8 "si", 1⟩⟩,
        ⟨utf8 "\n", utf8 "\"'\n\"", ⟨.string, utf8 "'\n", 1⟩⟩]
    Token.scan ([0xE2, 0x82] ++ utf8 "===9si\"'\n") = places.map Placed.token ++ [Token.eof 2] ∧
      Token.scan (Placed.joined places (utf8 " ")) =
        [⟨.illegal, [0xE2], 2⟩, ⟨.illegal, [0x82], 2⟩, ⟨.equal, utf8 "==", 2⟩,
          ⟨.assign, utf8 "=", 2⟩, ⟨.int, utf8 "9", 3⟩, ⟨.ifWord, utf8 "si", 3⟩,
          ⟨.string, utf8 "'\n", 4⟩, Token.eof 5] := by
  intro places
  have scanned : Token.scan ([0xE2, 0x82] ++ utf8 "===9si\"'\n") =
      places.map Placed.token ++ [Token.eof 2] := by decide +kernel
  have written : ∀ place ∈ places, place.token.WrittenOut place.spelling := by
    simp only [places, List.forall_mem_cons]
    exact ⟨rfl, rfl, rfl, rfl, rfl, rfl, ⟨Text.doubleQuote, .inl rfl, by decide, rfl⟩, by simp⟩
  have again := (Token.scan_respelled _).2 places _ (utf8 " ") scanned written
    (by decide +kernel) (by decide +kernel) (by decide +kernel)
  exact ⟨scanned, again.trans (by decide +kernel)⟩

end Lengua
