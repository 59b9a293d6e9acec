import Lengua.Text

/-!
# Tokens

A token is a kind, the text it stands for and the line it starts on. Reserved words
share the spelling rule of identifiers and are told from them by `Kind.ofWord`.
Lines are integers because a token list may also come from elsewhere, with any line
in it; the scanner counts from one.
-/

namespace Lengua

/-- The kinds of tokens. -/
inductive Kind where
  /-- The end of the input. -/
  | eof
  /-- A character the language has no use for. -/
  | illegal
  /-- A name that is no reserved word. -/
  | ident
  /-- Decimal digits. -/
  | int
  /-- A text between quotation marks. -/
  | string
  /-- The sign `=`. -/
  | assign
  /-- The sign `+`. -/
  | plus
  /-- The sign `-`. -/
  | minus
  /-- The sign `*`. -/
  | times
  /-- The sign `/`. -/
  | divide
  /-- The sign `!`. -/
  | negation
  /-- The sign `<`. -/
  | less
  /-- The sign `>`. -/
  | greater
  /-- The sign `==`. -/
  | equal
  /-- The sign `!=`. -/
  | notEqual
  /-- The sign `,`. -/
  | comma
  /-- The sign `;`. -/
  | semicolon
  /-- An opening parenthesis. -/
  | leftParen
  /-- A closing parenthesis. -/
  | rightParen
  /-- An opening brace. -/
  | leftBrace
  /-- A closing brace. -/
  | rightBrace
  /-- The word `variable`. -/
  | variableWord
  /-- The word `procedimiento`. -/
  | procedureWord
  /-- The word `regresa`. -/
  | returnWord
  /-- The word `si`. -/
  | ifWord
  /-- The word `si_no`. -/
  | elseWord
  /-- The word `verdadero`. -/
  | trueWord
  /-- The word `falso`. -/
  | falseWord
  /-- The word `nulo`. -/
  | nullWord
  /-- A kind the language does not know, with its code. -/
  | unknown (code : Nat)
deriving DecidableEq

namespace Kind

/-- The known kinds in the order of their codes. -/
def known : List Kind :=
  [eof, illegal, ident, int, string, assign, plus, minus, times, divide, negation, less, greater,
    equal, notEqual, comma, semicolon, leftParen, rightParen, leftBrace, rightBrace, variableWord,
    procedureWord, returnWord, ifWord, elseWord, trueWord, falseWord, nullWord]

/-- The kind with a given code. -/
def ofCode (code : Nat) : Kind := (known[code]?).getD (unknown code)

/-- The name of a kind in diagnostics. -/
def name : Kind → String
  | eof => "EOF"
  | illegal => "ILLEGAL"
  | ident => "IDENT"
  | int => "INT"
  | string => "STRING"
  | assign => "ASSIGN"
  | plus => "PLUS"
  | minus => "MINUS"
  | times => "MULTIPLICATION"
  | divide => "DIVISION"
  | negation => "NEGATION"
  | less => "LT"
  | greater => "GT"
  | equal => "EQ"
  | notEqual => "NOT_EQ"
  | comma => "COMMA"
  | semicolon => "SEMICOLON"
  | leftParen => "LPAREN"
  | rightParen => "RPAREN"
  | leftBrace => "LBRACE"
  | rightBrace => "RBRACE"
  | variableWord => "LET"
  | procedureWord => "FUNCTION"
  | returnWord => "RETURN"
  | ifWord => "IF"
  | elseWord => "ELSE"
  | trueWord => "TRUE"
  | falseWord => "FALSE"
  | nullWord => "NULL"
  | unknown _ => "UNKNOWN"

/-- The known kind with a given diagnostic name. -/
def ofName? (name : String) : Option Kind := known.find? (·.name == name)

/-- The reserved words and their kinds. -/
def reserved : List (Text × Kind) :=
  [(utf8 "variable", variableWord), (utf8 "procedimiento", procedureWord),
    (utf8 "regresa", returnWord), (utf8 "si", ifWord), (utf8 "si_no", elseWord),
    (utf8 "verdadero", trueWord), (utf8 "falso", falseWord), (utf8 "nulo", nullWord)]

/-- The kind of a word: that of the reserved word it is, or else an identifier. -/
def ofWord (word : Text) : Kind := (reserved.lookup word).getD ident

/-- How tightly a kind binds to the operand before it, from one, for a kind that continues no
expression, to seven, for the parenthesis of a call. -/
def strength : Kind → Nat
  | equal | notEqual => 2
  | less | greater => 3
  | plus | minus => 4
  | times | divide => 5
  | leftParen => 7
  | _ => 1

/-- The strength below which nothing binds: that of a whole expression. -/
def loosest : Nat := 1

/-- How tightly a sign before an operand holds it. -/
def signStrength : Nat := 6

end Kind

/-- A lexical unit of a program. -/
structure Token where
  /-- What sort of unit it is. -/
  kind : Kind
  /-- The text it stands for; of a string, what is between the quotation marks. -/
  literal : Text
  /-- The line it starts on, counted from one. -/
  line : Int
deriving DecidableEq

/-- The token that marks the end of the input on a line. -/
def Token.eof (line : Int) : Token := ⟨.eof, [], line⟩

end Lengua
