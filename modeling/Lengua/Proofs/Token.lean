import Lengua.Proofs.Scanner

/-!
# Tokens as they are written

Every sign and every reserved word has one spelling. A token is genuine when its literal
is one that its kind can have in a text: the spelling of a sign or of a reserved word, a
word that is not reserved, digits, or a string that at least one of the two quotation
marks does not occur in. All tokens of a text are genuine.
-/

namespace Lengua

/-- The spelling of a sign or of a reserved word. -/
def Kind.spelling : Kind → Text
  | .assign => utf8 "="
  | .plus => utf8 "+"
  | .minus => utf8 "-"
  | .times => utf8 "*"
  | .divide => utf8 "/"
  | .negation => utf8 "!"
  | .less => utf8 "<"
  | .greater => utf8 ">"
  | .equal => utf8 "=="
  | .notEqual => utf8 "!="
  | .comma => utf8 ","
  | .semicolon => utf8 ";"
  | .leftParen => utf8 "("
  | .rightParen => utf8 ")"
  | .leftBrace => utf8 "\x7b"
  | .rightBrace => utf8 "\x7d"
  | .variableWord => utf8 "variable"
  | .procedureWord => utf8 "procedimiento"
  | .returnWord => utf8 "regresa"
  | .ifWord => utf8 "si"
  | .elseWord => utf8 "si_no"
  | .trueWord => utf8 "verdadero"
  | .falseWord => utf8 "falso"
  | .nullWord => utf8 "nulo"
  | .eof | .illegal | .ident | .int | .string | .unknown _ => []

/-- What a token says apart from its line. -/
abbrev Shape := Kind × Text

/-- The kind and the literal of a token. -/
def Token.shape (token : Token) : Shape := (token.kind, token.literal)

/-- The shape of a sign or of a reserved word. -/
def Kind.shape (kind : Kind) : Shape := (kind, kind.spelling)

/-- A run of letters and digits that begins with a letter. -/
def Text.IsWord (text : Text) : Prop :=
  ∃ first rest, text = first :: rest ∧ Text.isLetter first = true ∧
    ∀ byte ∈ rest, isWordByte byte = true

/-- A run of at least one digit. -/
def Text.IsNumber (text : Text) : Prop := text ≠ [] ∧ ∀ byte ∈ text, Text.isDigit byte = true

/-- A text that can stand between quotation marks of one of the two sorts. -/
def Text.IsQuotable (text : Text) : Prop :=
  Text.doubleQuote ∉ text ∨ Text.singleQuote ∉ text

/-- The literals that tokens of a kind can have in a text. -/
def Kind.Admits (kind : Kind) (literal : Text) : Prop :=
  match kind with
  | .ident => literal.IsWord ∧ Kind.ofWord literal = .ident
  | .int => literal.IsNumber
  | .string => literal.IsQuotable
  | .eof | .illegal | .unknown _ => True
  | other => literal = other.spelling

/-- A token with a literal that its kind can have in a text. -/
def Token.Genuine (token : Token) : Prop := token.kind.Admits token.literal

/-- A word has the kind whose spelling it is, or else it is a name. -/
theorem Kind.admits_ofWord {word : Text} (written : word.IsWord) :
    (Kind.ofWord word).Admits word := by
  have table : ∀ entry ∈ Kind.reserved, entry.2.Admits entry.1 := by
    simp only [Kind.reserved, List.forall_mem_cons]
    exact ⟨rfl, rfl, rfl, rfl, rfl, rfl, rfl, rfl, by simp⟩
  cases found : Kind.reserved.lookup word with
  | none =>
    have name : Kind.ofWord word = .ident := by rw [Kind.ofWord, found]; rfl
    rw [name]
    exact ⟨written, name⟩
  | some kind =>
    obtain ⟨before, after, parted, -⟩ := List.lookup_eq_some_iff.mp found
    have reserved : Kind.ofWord word = kind := by rw [Kind.ofWord, found]; rfl
    rw [reserved]
    exact table (word, kind) (by simp [parted])

/-- A sign of one byte is the spelling of its kind. -/
theorem Kind.admits_ofSign {byte : UInt8} {kind : Kind} (found : Kind.ofSign? byte = some kind) :
    kind.Admits [byte] := by
  revert found
  fun_cases Kind.ofSign? byte <;> rintro ⟨⟩ <;> simp_all only [beq_iff_eq] <;> rfl

/-- A sign of two bytes is the spelling of its kind. -/
theorem Kind.admits_ofPair {first second : UInt8} {kind : Kind}
    (found : Kind.ofPair? first second = some kind) : kind.Admits [first, second] := by
  revert found
  fun_cases Kind.ofPair? first second <;> rintro ⟨⟩ <;> simp_all only [beq_iff_eq] <;> rfl

namespace Lexeme

/-- The literal of a quotation does not contain its quotation mark. -/
theorem quotation_literal (quote : UInt8) (text : Text) :
    quote ∉ (quotation quote text).literal := by
  have same : (quotation quote text).literal = text.takeWhile (· != quote) := by
    unfold quotation
    dsimp only
    split <;> rfl
  intro member
  rw [same] at member
  simpa using List.all_eq_true.mp List.all_takeWhile quote member

/-- Every lexeme has a literal that its kind can have. -/
theorem first_admits (byte : UInt8) (text : Text) :
    (first byte text).kind.Admits (first byte text).literal := by
  unfold first
  split
  case isTrue letter =>
    apply Kind.admits_ofWord
    refine ⟨byte, text.takeWhile isWordByte, ?_, letter,
      List.all_eq_true.mp List.all_takeWhile⟩
    simp [isWordByte, letter]
  split
  case isTrue digit =>
    refine ⟨?_, List.all_eq_true.mp List.all_takeWhile⟩
    simp [number, plain, digit]
  split
  case isTrue quote =>
    have missing := quotation_literal byte text
    rw [quotation_kind]
    simp only [Bool.or_eq_true, beq_iff_eq] at quote
    rcases quote with rfl | rfl
    · exact .inl missing
    · exact .inr missing
  unfold sign
  split
  case h_1 kind found =>
    obtain ⟨second, next, paired⟩ := Option.bind_eq_some_iff.mp found
    obtain ⟨rest, rfl⟩ := List.head?_eq_some_iff.mp next
    exact Kind.admits_ofPair paired
  case h_2 =>
    split
    case h_1 kind found => exact Kind.admits_ofSign found
    case h_2 => trivial

end Lexeme

namespace Scanner

/-- A scanner finds genuine tokens. -/
theorem next_genuine (scanner : Scanner) : scanner.next.1.Genuine := by
  cases start : scanner.rest.dropWhile isSeparator with
  | nil =>
    rw [next_of_nil start]
    trivial
  | cons byte text =>
    rw [next_of_cons start]
    exact Lexeme.first_admits byte text

/-- A run of a scanner finds genuine tokens. -/
theorem pull_genuine (count : Nat) (scanner : Scanner) :
    ∀ token ∈ (scanner.pull count).1, token.Genuine := by
  induction count generalizing scanner with
  | zero => simp [pull]
  | succ count ih =>
    intro token member
    rw [pull_succ] at member
    rcases List.mem_cons.mp member with rfl | member
    · exact scanner.next_genuine
    · exact ih scanner.next.2 token member

end Scanner

/-- The tokens of a text are genuine. -/
theorem Token.scan_genuine (source : Text) : ∀ token ∈ Token.scan source, token.Genuine := by
  obtain ⟨tokens, line, scanned, -, -, pulled⟩ := Token.exists_scan_eq source
  intro token member
  apply Scanner.pull_genuine (tokens.length + 1) (Scanner.ofText source)
  rw [pulled 1]
  rwa [scanned] at member

end Lengua
