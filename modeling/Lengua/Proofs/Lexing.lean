import Lengua.Proofs.Grammar
import Lengua.Proofs.Token
import Lengua.Tree.Render

/-!
# Writing tokens next to each other

When does a text give the tokens it was put together from? `Lexes` says that a scanner
finds tokens of some shapes and then stands before the rest. It composes, and holds of
each sort of lexeme by itself: a word or a number as long as no letter or digit follows, a
sign as long as it does not become one of two bytes, a string whatever follows. Separators
in front of a token change nothing.
-/

namespace Lengua

/-- A text is read to tokens of given shapes up to a rest. -/
def Lexes (source : Text) (shapes : List Shape) (rest : Text) : Prop :=
  ∀ line, ∃ tokens last, (Scanner.mk source line).Yields tokens ⟨rest, last⟩ ∧
    tokens.map Token.shape = shapes

/-- Tokens found before others. -/
theorem Scanner.Yields.append {scanner middle last : Scanner} {first second : List Token}
    (before : scanner.Yields first middle) (after : middle.Yields second last) :
    scanner.Yields (first ++ second) last := by
  constructor
  · rw [List.length_append, Scanner.pull_add, before.pulled, after.pulled]
  · intro token member
    rcases List.mem_append.mp member with member | member
    · exact before.endless token member
    · exact after.endless token member

namespace Lexes

/-- Nothing is read. -/
theorem nil (source : Text) : Lexes source [] source := fun line =>
  ⟨[], line, .nil _, rfl⟩

/-- What is read up to a rest, and what the rest is read to. -/
theorem append {source middle rest : Text} {first second : List Shape}
    (before : Lexes source first middle) (after : Lexes middle second rest) :
    Lexes source (first ++ second) rest := by
  intro line
  obtain ⟨tokens, next, yields, shaped⟩ := before line
  obtain ⟨others, last, follows, shapedRest⟩ := after next
  refine ⟨tokens ++ others, last, yields.append follows, ?_⟩
  rw [List.map_append, shaped, shapedRest]

/-- One token, and what the rest is read to. -/
theorem cons {source middle rest : Text} {shape : Shape} {others : List Shape}
    (before : Lexes source [shape] middle) (after : Lexes middle others rest) :
    Lexes source (shape :: others) rest := before.append after

/-- A separator in front of tokens changes nothing. -/
theorem separated {source rest : Text} {shape : Shape} {others : List Shape} {byte : UInt8}
    (blank : isSeparator byte = true) (found : Lexes source (shape :: others) rest) :
    Lexes (byte :: source) (shape :: others) rest := by
  intro line
  obtain ⟨tokens, last, yields, shaped⟩ := found (line + Text.lineFeeds [byte])
  refine ⟨tokens, last, ⟨?_, yields.endless⟩, shaped⟩
  obtain ⟨token, following, rfl, -⟩ := List.map_eq_cons_iff.mp shaped
  have same : (Scanner.mk (byte :: source) line).next =
      (Scanner.mk source (line + Text.lineFeeds [byte])).next :=
    Scanner.next_separated (List.forall_mem_singleton.mpr blank) source line
  rw [← yields.pulled, List.length_cons, Scanner.pull_succ, Scanner.pull_succ, same]

/-- The first lexeme of a text that does not begin with a separator. -/
theorem first {byte : UInt8} {text rest : Text} {shape : Shape}
    (solid : isSeparator byte = false)
    (shaped : ((Lexeme.first byte text).kind, (Lexeme.first byte text).literal) = shape)
    (ends : (Lexeme.first byte text).rest = rest) : Lexes (byte :: text) [shape] rest := by
  intro line
  have start : (Scanner.mk (byte :: text) line).rest.dropWhile isSeparator = byte :: text :=
    List.dropWhile_cons_of_neg (by simp [solid])
  have next := Scanner.next_of_cons start
  have going : (Scanner.mk (byte :: text) line).next.1.kind ≠ .eof := by
    rw [next]
    exact Lexeme.first_kind_ne_eof byte text
  have yields := Scanner.Yields.cons going (.nil _)
  rw [next, ends] at yields
  exact ⟨_, _, yields, congrArg (fun shape => [shape]) shaped⟩

/-! ## Lexemes -/

/-- No letter or digit stands first. -/
def Clear (rest : Text) : Prop := ∀ byte ∈ rest.head?, isWordByte byte = false

/-- The longest run of bytes of a class, before a byte that is not of it. -/
theorem span_eq {class? : UInt8 → Bool} {run rest : Text}
    (inside : ∀ byte ∈ run, class? byte = true)
    (outside : ∀ byte ∈ rest.head?, class? byte = false) :
    (run ++ rest).takeWhile class? = run ∧ (run ++ rest).dropWhile class? = rest := by
  rw [List.takeWhile_append_of_pos inside, List.dropWhile_append_of_pos inside]
  cases rest with
  | nil => simp
  | cons byte rest =>
    have stops : ¬ class? byte = true := by simp [outside byte rfl]
    rw [List.takeWhile_cons_of_neg stops, List.dropWhile_cons_of_neg stops, List.append_nil]
    exact ⟨rfl, rfl⟩

/-- A letter is no separator. -/
theorem letter_solid {byte : UInt8} (letter : Text.isLetter byte = true) :
    isSeparator byte = false := by
  grind [Text.isLetter, isSeparator, Text.underscore, Text.space, Text.newline]

/-- A digit is no letter and no separator. -/
theorem digit_solid {byte : UInt8} (digit : Text.isDigit byte = true) :
    Text.isLetter byte = false ∧ isSeparator byte = false := by
  grind [Text.isLetter, Text.isDigit, isSeparator, Text.underscore, Text.space, Text.newline]

/-- A word before something that does not continue it. -/
theorem word {written rest : Text} (isWord : written.IsWord) (clear : Clear rest) :
    Lexes (written ++ rest) [(Kind.ofWord written, written)] rest := by
  obtain ⟨byte, others, rfl, letter, inside⟩ := isWord
  have all : ∀ other ∈ byte :: others, isWordByte other = true :=
    List.forall_mem_cons.mpr ⟨by simp [isWordByte, letter], inside⟩
  obtain ⟨taken, dropped⟩ := span_eq all clear
  rw [List.cons_append] at taken dropped ⊢
  have lexeme : Lexeme.first byte (others ++ rest) = Lexeme.word (byte :: (others ++ rest)) :=
    if_pos letter
  apply first (letter_solid letter)
  · rw [lexeme, Lexeme.word, taken]
    rfl
  · rw [lexeme, Lexeme.word]
    exact dropped

/-- A number before something that does not continue it. -/
theorem number {written rest : Text} (isNumber : written.IsNumber) (clear : Clear rest) :
    Lexes (written ++ rest) [(.int, written)] rest := by
  obtain ⟨some, inside⟩ := isNumber
  obtain ⟨byte, others, rfl⟩ := List.exists_cons_of_ne_nil some
  have stops : ∀ other ∈ rest.head?, Text.isDigit other = false := by
    intro other leads
    have outside := clear other leads
    rw [isWordByte, Bool.or_eq_false_iff] at outside
    exact outside.2
  obtain ⟨taken, dropped⟩ := span_eq inside stops
  obtain ⟨noLetter, solid⟩ := digit_solid (inside byte List.mem_cons_self)
  rw [List.cons_append] at taken dropped ⊢
  have lexeme : Lexeme.first byte (others ++ rest) = Lexeme.number (byte :: (others ++ rest)) := by
    rw [Lexeme.first, noLetter, if_neg Bool.false_ne_true, if_pos (inside byte List.mem_cons_self)]
  apply first solid
  · rw [lexeme, Lexeme.number, taken]
    rfl
  · rw [lexeme, Lexeme.number]
    exact dropped

/-- A string in quotation marks that do not occur in it. -/
theorem quoted {quote : UInt8} {value : Text}
    (mark : quote = Text.doubleQuote ∨ quote = Text.singleQuote) (missing : quote ∉ value)
    (rest : Text) :
    Lexes (quote :: value ++ [quote] ++ rest) [(.string, value)] rest := by
  have inside : ∀ byte ∈ value, (byte != quote) = true := by
    intro byte member
    rw [bne_iff_ne]
    rintro rfl
    exact missing member
  have outside : ∀ byte ∈ (quote :: rest).head?, (byte != quote) = false := by simp
  obtain ⟨taken, dropped⟩ := span_eq inside outside
  have text : quote :: value ++ [quote] ++ rest = quote :: (value ++ quote :: rest) := by simp
  have lexeme : Lexeme.first quote (value ++ quote :: rest) =
      ⟨.string, value, quote :: value ++ [quote], rest⟩ := by
    have kinds : Text.isLetter quote = false ∧ Text.isDigit quote = false ∧
        (quote == Text.doubleQuote || quote == Text.singleQuote) = true := by
      rcases mark with rfl | rfl <;> decide
    rw [Lexeme.first, kinds.1, kinds.2.1, kinds.2.2, if_neg Bool.false_ne_true,
      if_neg Bool.false_ne_true, if_pos rfl]
    simp only [Lexeme.quotation, taken, dropped]
  rw [text]
  apply first
  · rcases mark with rfl | rfl <;> decide
  · rw [lexeme]
  · rw [lexeme]

/-- A string as it is written in canonical text. -/
theorem quotation {value : Text} (quotable : value.IsQuotable) (rest : Text) :
    Lexes (Text.quotation value ++ rest) [(.string, value)] rest := by
  unfold Text.quotation
  dsimp only
  split
  case isTrue double =>
    have missing : Text.singleQuote ∉ value :=
      quotable.resolve_left fun absent => absent (List.contains_iff_mem.mp double)
    exact quoted (.inr rfl) missing rest
  case isFalse double =>
    have missing : Text.doubleQuote ∉ value := fun member =>
      double (List.contains_iff_mem.mpr member)
    exact quoted (.inl rfl) missing rest

/-- A byte that is a sign is nothing else. -/
theorem sign_solid {byte : UInt8} {kind : Kind} (found : Kind.ofSign? byte = some kind) :
    isSeparator byte = false ∧ ∀ text, Lexeme.first byte text = Lexeme.sign byte text := by
  have classes : isSeparator byte = false ∧ Text.isLetter byte = false ∧
      Text.isDigit byte = false ∧
        (byte == Text.doubleQuote || byte == Text.singleQuote) = false := by
    revert found
    fun_cases Kind.ofSign? byte <;> rintro ⟨⟩ <;> simp_all only [beq_iff_eq] <;> decide
  obtain ⟨solid, noLetter, noDigit, noQuote⟩ := classes
  refine ⟨solid, fun text => ?_⟩
  rw [Lexeme.first, noLetter, noDigit, noQuote, if_neg Bool.false_ne_true,
    if_neg Bool.false_ne_true, if_neg Bool.false_ne_true]

/-- A sign of one byte that does not become one of two. -/
theorem sign {byte : UInt8} {kind : Kind} (found : Kind.ofSign? byte = some kind) {rest : Text}
    (alone : ∀ next ∈ rest.head?, Kind.ofPair? byte next = none) :
    Lexes (byte :: rest) [(kind, [byte])] rest := by
  obtain ⟨solid, isSign⟩ := sign_solid found
  have single : rest.head?.bind (Kind.ofPair? byte) = none := by
    rw [Option.bind_eq_none_iff]
    exact alone
  apply first solid
  · rw [isSign, Lexeme.sign, single, found]
    rfl
  · rw [isSign, Lexeme.sign, single, found]
    rfl

/-- A sign of two bytes. -/
theorem pair {byte next : UInt8} {kind other : Kind} (found : Kind.ofSign? byte = some other)
    (paired : Kind.ofPair? byte next = some kind) (rest : Text) :
    Lexes (byte :: next :: rest) [(kind, [byte, next])] rest := by
  obtain ⟨solid, isSign⟩ := sign_solid found
  apply first solid
  · rw [isSign, Lexeme.sign, List.head?_cons, Option.bind_some, paired]
    rfl
  · rw [isSign, Lexeme.sign, List.head?_cons, Option.bind_some, paired]
    rfl

/-- The signs of one byte that never become signs of two. -/
def isLone : Kind → Bool
  | .plus | .minus | .times | .divide | .less | .greater | .comma | .semicolon | .leftParen
  | .rightParen | .leftBrace | .rightBrace => true
  | _ => false

/-- What such a sign is written as. -/
theorem lone_spelling {kind : Kind} (alone : isLone kind = true) :
    ∃ byte, kind.spelling = [byte] ∧ Kind.ofSign? byte = some kind ∧ byte ≠ 0x3D ∧ byte ≠ 0x21 ∧
      isWordByte byte = false := by
  cases kind with
  | plus | minus | times | divide | less | greater | comma | semicolon | leftParen | rightParen
  | leftBrace | rightBrace => exact ⟨_, rfl, rfl, by decide⟩
  | _ => cases alone

/-- A sign of one byte that never becomes one of two. -/
theorem loneSign (kind : Kind) (alone : isLone kind = true) (rest : Text) :
    Lexes (kind.spelling ++ rest) [kind.shape] rest := by
  obtain ⟨byte, spelled, found, noEqual, noBang, -⟩ := lone_spelling alone
  rw [Kind.shape, spelled]
  apply sign found
  intro next _
  simp [Kind.ofPair?, noEqual, noBang]

/-- Such a sign does not continue a word or a number. -/
theorem clear_lone (kind : Kind) (alone : isLone kind = true) (rest : Text) :
    Clear (kind.spelling ++ rest) := by
  obtain ⟨byte, spelled, -, -, -, outside⟩ := lone_spelling alone
  rw [spelled]
  rintro _ ⟨⟩
  exact outside

/-- A space does not continue a word or a number. -/
theorem clear_space (rest : Text) : Clear (utf8 " " ++ rest) := by
  rintro _ ⟨⟩
  rfl

/-- A space in front of tokens changes nothing. -/
theorem space {source rest : Text} {shapes : List Shape} (some : shapes ≠ [])
    (found : Lexes source shapes rest) : Lexes (utf8 " " ++ source) shapes rest := by
  obtain ⟨shape, others, rfl⟩ := List.exists_cons_of_ne_nil some
  exact separated rfl found

/-- The sign of an operation, whatever follows. -/
theorem operation {kind : Kind} {rank : Nat} (ranked : kind.rank? = some rank) (rest : Text) :
    Lexes (kind.spelling ++ rest) [kind.shape] rest := by
  cases kind with
  | equal | notEqual => exact pair rfl rfl rest
  | plus | minus | times | divide | less | greater => exact loneSign _ rfl rest
  | _ => cases ranked

/-- A reserved word before something that does not continue it. -/
theorem reserved (kind : Kind) (listed : (Kind.reserved.map Prod.snd).contains kind = true)
    {rest : Text} (clear : Clear rest) : Lexes (kind.spelling ++ rest) [kind.shape] rest := by
  have table : ∀ entry ∈ Kind.reserved, entry.1 = entry.2.spelling ∧ entry.1.IsWord ∧
      Kind.ofWord entry.1 = entry.2 := by
    have word {first : UInt8} {rest : Text} (letter : Text.isLetter first = true)
        (inside : rest.all isWordByte = true) : Text.IsWord (first :: rest) :=
      ⟨first, rest, rfl, letter, List.all_eq_true.mp inside⟩
    simp only [Kind.reserved, List.forall_mem_cons]
    exact ⟨⟨rfl, word rfl rfl, rfl⟩, ⟨rfl, word rfl rfl, rfl⟩, ⟨rfl, word rfl rfl, rfl⟩,
      ⟨rfl, word rfl rfl, rfl⟩, ⟨rfl, word rfl rfl, rfl⟩, ⟨rfl, word rfl rfl, rfl⟩,
      ⟨rfl, word rfl rfl, rfl⟩, ⟨rfl, word rfl rfl, rfl⟩, by simp⟩
  obtain ⟨entry, member, rfl⟩ := List.mem_map.mp (List.contains_iff_mem.mp listed)
  obtain ⟨spelled, isWord, found⟩ := table entry member
  have read := word isWord clear
  rw [found] at read
  rwa [Kind.shape, ← spelled]

/-- The sign of an assignment or of a negation, before something that does not continue it. -/
theorem openSign {kind : Kind} (continued : kind = .assign ∨ kind = .negation) {rest : Text}
    (apart : ∀ next ∈ rest.head?, next ≠ 0x3D) : Lexes (kind.spelling ++ rest) [kind.shape] rest := by
  have alone (byte : UInt8) : ∀ next ∈ rest.head?, Kind.ofPair? byte next = none := by
    intro next leads
    simp [Kind.ofPair?, apart next leads]
  rcases continued with rfl | rfl
  · exact sign rfl (alone 0x3D)
  · exact sign rfl (alone 0x21)

end Lexes

end Lengua
