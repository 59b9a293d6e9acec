import Lengua.Proofs.Character
import Lengua.Proofs.Token

/-!
# Nothing is lost between a text and its tokens

A text is the spellings of its tokens with separators between them, so the tokens can be
put back in their places: `Placed` is a token with the bytes that spell it and the
separators before them. Every byte belongs to exactly one place or to the separators at the
end, every token carries the line its spelling begins on, and no spelling could have been
longer. One step of a scanner gives one place (`Scanner.next_placed`), and a run of it the
places of all tokens it finds.
-/

namespace Lengua

/-! ## Spellings -/

/-- The kinds of names and of reserved words. -/
def Kind.IsWord (kind : Kind) : Prop := kind = .ident ∨ kind ∈ Kind.reserved.map Prod.snd

/-- What it means that bytes spell a token where a given text follows them. -/
structure Token.Written (token : Token) (spelling rest : Text) : Prop where
  /-- The literal is one that the kind can have. -/
  genuine : token.Genuine
  /-- There is at least one byte. -/
  visible : spelling ≠ []
  /-- All but strings are spelled by their literals. -/
  plain : token.kind ≠ .string → spelling = token.literal
  /-- A string stands in quotation marks of a sort that does not occur in it. The second may be
  missing where the text ends. -/
  quoted : token.kind = .string → ∃ quote, (quote = Text.doubleQuote ∨ quote = Text.singleQuote) ∧
    quote ∉ token.literal ∧ (spelling = quote :: token.literal ++ [quote] ∨
      spelling = quote :: token.literal ∧ rest = [])
  /-- A word ends where no letter or digit follows. -/
  word : token.kind.IsWord → ∀ byte ∈ rest.head?, isWordByte byte = false
  /-- A number ends where no digit follows. -/
  number : token.kind = .int → ∀ byte ∈ rest.head?, Text.isDigit byte = false
  /-- The signs that could begin a longer one do not. -/
  sign : token.kind = .assign ∨ token.kind = .negation → ∀ byte ∈ rest.head?, byte ≠ 0x3D
  /-- What has no use in the language is one character or one stray byte. -/
  piece : token.kind = .illegal → Text.IsPiece token.literal rest

/-- The kind of a word is that of a name or of a reserved word. -/
theorem Kind.isWord_ofWord (word : Text) : (Kind.ofWord word).IsWord := by
  cases found : Kind.reserved.lookup word with
  | none => exact .inl (by rw [Kind.ofWord, found]; rfl)
  | some kind =>
    obtain ⟨before, after, parted, -⟩ := List.lookup_eq_some_iff.mp found
    have reserved : Kind.ofWord word = kind := by rw [Kind.ofWord, found]; rfl
    rw [reserved]
    exact .inr (List.mem_map.mpr ⟨(word, kind), by simp [parted], rfl⟩)

/-- A word is neither a number nor a string nor a sign. -/
theorem Kind.IsWord.apart {kind : Kind} (word : kind.IsWord) :
    kind ≠ .string ∧ kind ≠ .int ∧ kind ≠ .assign ∧ kind ≠ .negation ∧ kind ≠ .illegal := by
  have table : ∀ other ∈ Kind.reserved.map Prod.snd,
      other ≠ .string ∧ other ≠ .int ∧ other ≠ .assign ∧ other ≠ .negation ∧ other ≠ .illegal := by
    decide
  rcases word with rfl | reserved
  · decide
  · exact table kind reserved

/-- A sign of one byte is no word, number, string or stray piece. -/
theorem Kind.apart_ofSign {byte : UInt8} {kind : Kind} (found : Kind.ofSign? byte = some kind) :
    ¬ kind.IsWord ∧ kind ≠ .string ∧ kind ≠ .int ∧ kind ≠ .illegal := by
  unfold Kind.IsWord
  revert found
  fun_cases Kind.ofSign? byte <;> rintro ⟨⟩ <;> decide

/-- The signs that can begin a longer one do so before `=`. -/
theorem Kind.exists_ofPair {byte : UInt8} {kind : Kind} (found : Kind.ofSign? byte = some kind)
    (starts : kind = .assign ∨ kind = .negation) :
    ∃ longer, Kind.ofPair? byte 0x3D = some longer := by
  revert found
  fun_cases Kind.ofSign? byte <;> rintro ⟨⟩ <;> simp_all [Kind.ofPair?]

/-- A sign of two bytes begins with a sign of one. -/
theorem Kind.ofSign_of_ofPair {first second : UInt8} {kind : Kind}
    (found : Kind.ofPair? first second = some kind) : (Kind.ofSign? first).isSome = true := by
  revert found
  fun_cases Kind.ofPair? first second <;> rintro ⟨⟩ <;> simp_all only [beq_iff_eq] <;> rfl

/-- A byte that is no sign begins none. -/
theorem Kind.ofPair_of_ofSign {byte : UInt8} (none : Kind.ofSign? byte = none) (second : UInt8) :
    Kind.ofPair? byte second = .none := by
  rw [Option.eq_none_iff_forall_ne_some]
  intro kind paired
  have begins := Kind.ofSign_of_ofPair paired
  rw [none] at begins
  cases begins

/-- A sign of two bytes is none of these, and is no beginning of another sign. -/
theorem Kind.apart_ofPair {first second : UInt8} {kind : Kind}
    (found : Kind.ofPair? first second = some kind) :
    ¬ kind.IsWord ∧ kind ≠ .string ∧ kind ≠ .int ∧ kind ≠ .illegal ∧ kind ≠ .assign ∧
      kind ≠ .negation := by
  unfold Kind.IsWord
  revert found
  fun_cases Kind.ofPair? first second <;> rintro ⟨⟩ <;> decide

namespace Lexeme

/-- The byte that a longest run stops at is not of its class. -/
theorem head_dropWhile {class? : UInt8 → Bool} {text : Text} :
    ∀ byte ∈ (text.dropWhile class?).head?, class? byte = false := by
  intro byte leads
  have stops := List.head?_dropWhile_not class? text
  rw [Option.mem_def.mp leads] at stops
  simpa using stops

/-- A lexeme has at least one byte. -/
theorem first_spelling_ne_nil (byte : UInt8) (text : Text) : (first byte text).spelling ≠ [] := by
  intro empty
  have whole := first_spelling_append_rest byte text
  have shorter := first_rest_length_lt byte text
  rw [empty, List.nil_append] at whole
  rw [whole, List.length_cons] at shorter
  omega

/-- The token of a lexeme on a line. -/
def token (lexeme : Lexeme) (line : Int) : Token := ⟨lexeme.kind, lexeme.literal, line⟩

/-- The lexemes that a text can start with are written where the text after them follows. -/
abbrev Written (lexeme : Lexeme) : Prop :=
  ∀ line, (lexeme.token line).Genuine → lexeme.spelling ≠ [] →
    (lexeme.token line).Written lexeme.spelling lexeme.rest

/-- A word ends before a byte that does not continue it. -/
theorem word_written (text : Text) : (word text).Written := by
  intro line genuine visible
  have isWord : (word text).kind.IsWord := Kind.isWord_ofWord _
  obtain ⟨noString, noInt, noAssign, noNegation, noPiece⟩ := isWord.apart
  exact {
    genuine, visible
    plain := fun _ => rfl
    quoted := fun kind => absurd kind noString
    word := fun _ => head_dropWhile
    number := fun kind => absurd kind noInt
    sign := fun kind => absurd kind (not_or.mpr ⟨noAssign, noNegation⟩)
    piece := fun kind => absurd kind noPiece }

/-- A number ends before a byte that is no digit. -/
theorem number_written (text : Text) : (number text).Written := by
  intro line genuine visible
  exact {
    genuine, visible
    plain := fun _ => rfl
    quoted := fun kind => nomatch kind
    word := fun kind => absurd rfl kind.apart.2.1
    number := fun _ => head_dropWhile
    sign := fun kind => kind.elim (nomatch ·) (nomatch ·)
    piece := fun kind => nomatch kind }

/-- A string ends with its quotation mark, or with the text. -/
theorem quotation_written {quote : UInt8} (text : Text)
    (mark : quote = Text.doubleQuote ∨ quote = Text.singleQuote) :
    (quotation quote text).Written := by
  intro line genuine visible
  have kind : ((quotation quote text).token line).kind = .string := quotation_kind quote text
  have missing : quote ∉ (quotation quote text).literal := quotation_literal quote text
  have ends : (quotation quote text).spelling = quote :: (quotation quote text).literal ++ [quote] ∨
      (quotation quote text).spelling = quote :: (quotation quote text).literal ∧
        (quotation quote text).rest = [] := by
    unfold quotation
    dsimp only
    split
    · exact .inr ⟨rfl, rfl⟩
    · exact .inl rfl
  exact {
    genuine, visible
    plain := fun other => absurd kind other
    quoted := fun _ => ⟨quote, mark, missing, ends⟩
    word := fun word => absurd kind word.apart.1
    number := fun other => nomatch kind.symm.trans other
    sign := fun other => other.elim (nomatch kind.symm.trans ·) (nomatch kind.symm.trans ·)
    piece := fun other => nomatch kind.symm.trans other }

/-- A sign is as long as it can be, and what is no sign is one piece. -/
theorem sign_written (byte : UInt8) (text : Text) : (sign byte text).Written := by
  intro line genuine visible
  cases paired : text.head?.bind (Kind.ofPair? byte) with
  | some kind =>
    have same : sign byte text = plain kind (byte :: text.take 1) (text.drop 1) := by
      rw [sign, paired]
    obtain ⟨second, -, found⟩ := Option.bind_eq_some_iff.mp paired
    obtain ⟨noWord, noString, noInt, noPiece, noAssign, noNegation⟩ := Kind.apart_ofPair found
    rw [same] at genuine visible ⊢
    exact {
      genuine, visible
      plain := fun _ => rfl
      quoted := fun kind => absurd kind noString
      word := fun kind => absurd kind noWord
      number := fun kind => absurd kind noInt
      sign := fun kind => absurd kind (not_or.mpr ⟨noAssign, noNegation⟩)
      piece := fun kind => absurd kind noPiece }
  | none =>
    cases found : Kind.ofSign? byte with
    | some kind =>
      have same : sign byte text = plain kind [byte] text := by
        rw [sign, paired]
        simp only [found]
      obtain ⟨noWord, noString, noInt, noPiece⟩ := Kind.apart_ofSign found
      rw [same] at genuine visible ⊢
      exact {
        genuine, visible
        plain := fun _ => rfl
        quoted := fun kind => absurd kind noString
        word := fun kind => absurd kind noWord
        number := fun kind => absurd kind noInt
        sign := by
          rintro starts _ leads rfl
          obtain ⟨longer, joined⟩ := Kind.exists_ofPair found starts
          have next : text.head? = some 0x3D := leads
          rw [next, Option.bind_some, joined] at paired
          cases paired
        piece := fun kind => absurd kind noPiece }
    | none =>
      have same : sign byte text = plain .illegal
          ((byte :: text).take (Text.pieceWidth (byte :: text)))
          ((byte :: text).drop (Text.pieceWidth (byte :: text))) := by
        rw [sign, paired]
        simp only [found]
      rw [same] at genuine visible ⊢
      exact {
        genuine, visible
        plain := fun _ => rfl
        quoted := fun kind => nomatch kind
        word := fun kind => absurd rfl kind.apart.2.2.2.2
        number := fun kind => nomatch kind
        sign := fun kind => kind.elim (nomatch ·) (nomatch ·)
        piece := fun _ => Text.isPiece_take byte text }

/-- The lexeme a text starts with is written where the rest of the text follows. -/
theorem first_written (byte : UInt8) (text : Text) (line : Int) :
    ((first byte text).token line).Written (first byte text).spelling (first byte text).rest := by
  have written : (first byte text).Written := by
    unfold first
    split
    · exact word_written _
    split
    · exact number_written _
    split
    case isTrue quote =>
      simp only [Bool.or_eq_true, beq_iff_eq] at quote
      exact quotation_written text quote
    · exact sign_written byte text
  exact written line (first_admits byte text) (first_spelling_ne_nil byte text)

end Lexeme

/-! ## Places -/

/-- A token where it stands in a text. -/
structure Placed where
  /-- The separators before it. -/
  gap : Text
  /-- The bytes that spell it. -/
  spelling : Text
  /-- The token itself. -/
  token : Token

namespace Placed

/-- The part of a text that a token takes with the separators before it. -/
def text (place : Placed) : Text := place.gap ++ place.spelling

/-- Tokens in their places and a text after them, put together. -/
def joined (places : List Placed) (last : Text) : Text := places.flatMap text ++ last

/-- The first place and the others. -/
@[simp] theorem joined_cons (place : Placed) (places : List Placed) (last : Text) :
    joined (place :: places) last = place.text ++ joined places last := by
  simp [joined]

/-- What it means that a token stands in its place between others, in a text that starts on a
line and has separators after its last token. -/
structure Stands (place : Placed) (line : Int) (before after : List Placed) (last : Text) :
    Prop where
  /-- Only separators stand before the token. -/
  gap : ∀ byte ∈ place.gap, isSeparator byte = true
  /-- The line of the token counts the line feeds before its spelling. -/
  line : place.token.line = line + Text.lineFeeds (joined before place.gap)
  /-- The token is spelled so that it ends before the next place. -/
  written : place.token.Written place.spelling (joined after last)
  /-- Only behind the last token there is nothing. -/
  final : joined after last = [] → after = [] ∧ last = []

/-- Where every token has a spelling, nothing is put together from nothing only. -/
theorem eq_nil_of_joined {places : List Placed} {last : Text}
    (visible : ∀ place ∈ places, place.spelling ≠ []) (empty : joined places last = []) :
    places = [] ∧ last = [] := by
  cases places with
  | nil => exact ⟨rfl, empty⟩
  | cons place others =>
    rw [joined_cons, List.append_eq_nil_iff, text, List.append_eq_nil_iff] at empty
    exact absurd empty.1.2 (visible place List.mem_cons_self)

/-- A token stands behind one more place than in the text after that place. -/
theorem Stands.behind {place first : Placed} {line : Int} {before after : List Placed}
    {last : Text} (stands : place.Stands (line + Text.lineFeeds first.text) before after last) :
    place.Stands line (first :: before) after last where
  gap := stands.gap
  line := by
    rw [stands.line, joined_cons, Text.lineFeeds_append]
    omega
  written := stands.written
  final := stands.final

end Placed

namespace Scanner

/-- A scanner that finds a token finds it in a place at the front of its text. -/
theorem next_placed {scanner : Scanner} (found : scanner.next.1.kind ≠ .eof) :
    ∃ place : Placed, place.token = scanner.next.1 ∧
      scanner.rest = place.text ++ scanner.next.2.rest ∧
      scanner.next.2.line = scanner.line + Text.lineFeeds place.text ∧
      (∀ byte ∈ place.gap, isSeparator byte = true) ∧
      place.token.line = scanner.line + Text.lineFeeds place.gap ∧
      place.token.Written place.spelling scanner.next.2.rest := by
  have whole : scanner.rest.takeWhile isSeparator ++ scanner.rest.dropWhile isSeparator =
      scanner.rest := List.takeWhile_append_dropWhile
  cases start : scanner.rest.dropWhile isSeparator with
  | nil =>
    rw [next_of_nil start] at found
    exact absurd rfl found
  | cons byte text =>
    rw [next_of_cons start]
    have spelled := Lexeme.first_spelling_append_rest byte text
    refine ⟨⟨scanner.rest.takeWhile isSeparator, (Lexeme.first byte text).spelling,
      (Lexeme.first byte text).token scanner.skipSeparators.line⟩, rfl, ?_, ?_,
      List.all_eq_true.mp List.all_takeWhile, rfl, Lexeme.first_written byte text _⟩
    · rw [Placed.text, List.append_assoc, spelled, ← start, whole]
    · rw [Placed.text, Text.lineFeeds_append, skipSeparators]
      push_cast
      omega

/-- The tokens a scanner finds stand in their places at the front of its text. -/
theorem Yields.placed {scanner last : Scanner} {tokens : List Token}
    (yields : scanner.Yields tokens last) :
    ∃ places : List Placed, places.map Placed.token = tokens ∧
      scanner.rest = Placed.joined places last.rest ∧
      last.line = scanner.line + Text.lineFeeds (Placed.joined places []) ∧
      ∀ before place after, places = before ++ place :: after →
        place.Stands scanner.line before after last.rest := by
  induction tokens generalizing scanner with
  | nil =>
    obtain rfl : scanner = last := (Prod.mk.inj yields.pulled).2
    refine ⟨[], rfl, rfl, by simp [Placed.joined, Text.lineFeeds], ?_⟩
    intro before place after parted
    simp at parted
  | cons token tokens ih =>
    obtain ⟨rfl, found, rest⟩ := yields.uncons
    obtain ⟨place, same, text, lines, gap, line, written⟩ := next_placed found
    obtain ⟨places, tokened, texts, later, stand⟩ := ih rest
    refine ⟨place :: places, by simp [same, tokened], ?_, ?_, ?_⟩
    · rw [Placed.joined_cons, ← texts, text]
    · rw [later, lines, Placed.joined_cons, Text.lineFeeds_append]
      push_cast
      omega
    · rintro (_ | ⟨first, before⟩) other after parted
      · obtain ⟨rfl, rfl⟩ := List.cons.inj parted
        rw [texts] at written
        refine ⟨gap, line, written, Placed.eq_nil_of_joined fun other member => ?_⟩
        obtain ⟨front, back, split⟩ := List.append_of_mem member
        exact (stand front other back split).written.visible
      · obtain ⟨rfl, rfl⟩ := List.cons.inj parted
        have stands := stand before other after rfl
        rw [lines] at stands
        exact stands.behind

/-- A scanner that finds the end mark has only separators left, and counts their lines. -/
theorem blank_of_ended {scanner : Scanner} {line : Int}
    (ended : scanner.next = (Token.eof line, ⟨[], line⟩)) :
    (∀ byte ∈ scanner.rest, isSeparator byte = true) ∧
      line = scanner.line + Text.lineFeeds scanner.rest := by
  cases start : scanner.rest.dropWhile isSeparator with
  | nil =>
    have all : scanner.rest.takeWhile isSeparator = scanner.rest := by
      have whole : scanner.rest.takeWhile isSeparator ++ scanner.rest.dropWhile isSeparator =
          scanner.rest := List.takeWhile_append_dropWhile
      rwa [start, List.append_nil] at whole
    rw [next_of_nil start, skipSeparators, all] at ended
    have same := congrArg (fun found => found.1.line) ended
    refine ⟨?_, same.symm⟩
    rw [← all]
    exact List.all_eq_true.mp List.all_takeWhile
  | cons byte text =>
    rw [next_of_cons start] at ended
    have mark := congrArg (fun found => found.1.kind) ended
    exact absurd mark (Lexeme.first_kind_ne_eof byte text)

end Scanner

/-- The tokens of a text stand in their places, and the text is made of these places and of
separators after the last. Each token has the line that its spelling begins on, is spelled in full,
and ends where it cannot go on; one end mark follows, on the line where the text ends. -/
theorem Token.scan_placed (source : Text) :
    ∃ (places : List Placed) (last : Text),
      Token.scan source = places.map Placed.token ++ [Token.eof (1 + Text.lineFeeds source)] ∧
      (∀ place ∈ places, place.token.kind ≠ .eof) ∧
      source = Placed.joined places last ∧
      (∀ byte ∈ last, isSeparator byte = true) ∧
      ∀ before place after, places = before ++ place :: after →
        place.Stands 1 before after last := by
  obtain ⟨tokens, final, line, yields, ended⟩ := (Scanner.ofText source).exists_yields
  obtain ⟨places, rfl, text, lines, stand⟩ := yields.placed
  obtain ⟨blank, counted⟩ := Scanner.blank_of_ended ended
  have whole : source = Placed.joined places final.rest := text
  have feeds : Text.lineFeeds source =
      Text.lineFeeds (Placed.joined places []) + Text.lineFeeds final.rest := by
    rw [whole, Placed.joined, Placed.joined, List.append_nil, Text.lineFeeds_append]
  have line : line = 1 + Text.lineFeeds source := by
    rw [counted, lines, feeds, Scanner.ofText]
    push_cast
    omega
  refine ⟨places, final.rest, ?_, ?_, whole, blank, stand⟩
  · rw [← line]
    exact yields.scan ended
  · intro place member
    exact yields.endless place.token (List.mem_map_of_mem member)

end Lengua
