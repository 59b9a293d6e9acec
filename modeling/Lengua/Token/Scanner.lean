import Lengua.Text.Utf8
import Lengua.Token

/-!
# From text to tokens

A scanner is the unread text and the line it starts on. `Scanner.next` passes over
blanks and takes the longest lexeme that follows; at the end of the text it answers
with the end mark for ever. `Token.scan` collects the tokens of a whole text. The
line of a token is one more than the line feeds before its first byte.
-/

namespace Lengua

/-- The bytes that separate tokens: space, tab, carriage return and line feed. -/
def isSeparator (byte : UInt8) : Bool :=
  byte == Text.space || byte == 0x09 || byte == 0x0D || byte == Text.newline

/-- A byte that continues a word. -/
def isWordByte (byte : UInt8) : Bool := Text.isLetter byte || Text.isDigit byte

/-- The kind of a one-byte sign. -/
def Kind.ofSign? (byte : UInt8) : Option Kind :=
  if byte == 0x3D then some .assign
  else if byte == 0x21 then some .negation
  else if byte == 0x2B then some .plus
  else if byte == 0x2D then some .minus
  else if byte == 0x2A then some .times
  else if byte == 0x2F then some .divide
  else if byte == 0x3C then some .less
  else if byte == 0x3E then some .greater
  else if byte == 0x28 then some .leftParen
  else if byte == 0x29 then some .rightParen
  else if byte == 0x7B then some .leftBrace
  else if byte == 0x7D then some .rightBrace
  else if byte == 0x2C then some .comma
  else if byte == 0x3B then some .semicolon
  else none

/-- The kind of a sign of two bytes, both `==` or `!=`. -/
def Kind.ofPair? (first second : UInt8) : Option Kind :=
  if second == 0x3D then
    if first == 0x3D then some .equal
    else if first == 0x21 then some .notEqual
    else none
  else none

/-- What a token is read from: its kind and literal, the bytes that spell it and the text
after them. -/
structure Lexeme where
  /-- The kind of the token. -/
  kind : Kind
  /-- The text the token stands for. -/
  literal : Text
  /-- The bytes that spell it. -/
  spelling : Text
  /-- The text after the spelling. -/
  rest : Text

namespace Lexeme

/-- A lexeme that stands for its own spelling. -/
def plain (kind : Kind) (spelling rest : Text) : Lexeme := ⟨kind, spelling, spelling, rest⟩

/-- A word: the longest run of letters and digits. -/
def word (text : Text) : Lexeme :=
  let spelling := text.takeWhile isWordByte
  plain (Kind.ofWord spelling) spelling (text.dropWhile isWordByte)

/-- A number: the longest run of digits. -/
def number (text : Text) : Lexeme :=
  plain .int (text.takeWhile Text.isDigit) (text.dropWhile Text.isDigit)

/-- A string up to the next quotation mark of its kind, or to the end of the text. -/
def quotation (quote : UInt8) (text : Text) : Lexeme :=
  let literal := text.takeWhile (· != quote)
  match text.dropWhile (· != quote) with
  | [] => ⟨.string, literal, quote :: literal, []⟩
  | _ :: rest => ⟨.string, literal, quote :: literal ++ [quote], rest⟩

/-- A sign of one or two bytes, or one character that is no sign. -/
def sign (first : UInt8) (text : Text) : Lexeme :=
  match text.head?.bind (Kind.ofPair? first) with
  | some kind => plain kind (first :: text.take 1) (text.drop 1)
  | none =>
    match Kind.ofSign? first with
    | some kind => plain kind [first] text
    | none =>
      let width := Text.pieceWidth (first :: text)
      plain .illegal ((first :: text).take width) ((first :: text).drop width)

/-- The lexeme a text starts with, given its first byte, which is no separator. -/
def first (byte : UInt8) (text : Text) : Lexeme :=
  if Text.isLetter byte then word (byte :: text)
  else if Text.isDigit byte then number (byte :: text)
  else if byte == Text.doubleQuote || byte == Text.singleQuote then quotation byte text
  else sign byte text

/-- A lexeme and what follows it are the text it was read from. -/
theorem first_spelling_append_rest (byte : UInt8) (text : Text) :
    (first byte text).spelling ++ (first byte text).rest = byte :: text := by
  unfold first
  split
  · exact List.takeWhile_append_dropWhile
  split
  · exact List.takeWhile_append_dropWhile
  split
  · have whole : text.takeWhile (· != byte) ++ text.dropWhile (· != byte) = text :=
      List.takeWhile_append_dropWhile
    unfold quotation
    split
    case h_1 closed => simpa [closed] using whole
    case h_2 quote rest closed =>
      have reached : quote = byte := by
        have head := List.head?_dropWhile_not (· != byte) text
        simpa [closed] using head
      simpa [closed, reached] using whole
  · unfold sign
    split
    case h_1 => exact congrArg (byte :: ·) (List.take_append_drop 1 text)
    case h_2 =>
      split
      · rfl
      · exact List.take_append_drop _ _

/-- A lexeme takes at least one byte. -/
theorem first_rest_length_lt (byte : UInt8) (text : Text) :
    (first byte text).rest.length < text.length + 1 := by
  have spelled : (first byte text).spelling ≠ [] := by
    unfold first
    split
    case isTrue letter => simp [word, plain, isWordByte, letter]
    split
    case isTrue digit => simp [number, plain, digit]
    split
    · unfold quotation
      split <;> simp
    · unfold sign
      split
      · simp [plain]
      split
      · simp [plain]
      · have wide := Text.pieceWidth_pos (byte :: text)
        simp [plain]
        omega
  have whole := congrArg List.length (first_spelling_append_rest byte text)
  have long := List.length_pos_iff.mpr spelled
  simp only [List.length_append, List.length_cons] at whole
  omega

end Lexeme

/-- A text being read and the line its unread part starts on. -/
structure Scanner where
  /-- The unread text. -/
  rest : Text
  /-- The line of its first byte. -/
  line : Int

namespace Scanner

/-- A scanner at the start of a text. -/
def ofText (source : Text) : Scanner := ⟨source, 1⟩

/-- The scanner at the start of another text, whatever it has read. -/
def reset (scanner : Scanner) (source : Text) : Scanner :=
  { scanner with rest := source, line := 1 }

/-- The scanner after the separators it stands at. -/
def skipSeparators (scanner : Scanner) : Scanner :=
  ⟨scanner.rest.dropWhile isSeparator,
    scanner.line + Text.lineFeeds (scanner.rest.takeWhile isSeparator)⟩

/-- The next token and the scanner after it. At the end of the text this is the end mark, and
the scanner stays there. -/
def next (scanner : Scanner) : Token × Scanner :=
  let start := scanner.skipSeparators
  match start.rest with
  | [] => (Token.eof start.line, start)
  | byte :: text =>
    let lexeme := Lexeme.first byte text
    (⟨lexeme.kind, lexeme.literal, start.line⟩,
      ⟨lexeme.rest, start.line + Text.lineFeeds lexeme.spelling⟩)

/-- The tokens up to the end mark, at most `bound` of them. -/
def drain : Nat → Scanner → List Token
  | 0, _ => []
  | bound + 1, scanner =>
    let (token, after) := scanner.next
    if token.kind = .eof then [token] else token :: drain bound after

/-- The next `count` tokens and the scanner after them. -/
def pull : Nat → Scanner → List Token × Scanner
  | 0, scanner => ([], scanner)
  | count + 1, scanner =>
    let (token, after) := scanner.next
    let (tokens, last) := pull count after
    (token :: tokens, last)

end Scanner

/-- The tokens of a text, the end mark included. A token takes at least one byte, so there are
at most one more of them than bytes. -/
def Token.scan (source : Text) : List Token := (Scanner.ofText source).drain (source.length + 1)

end Lengua
