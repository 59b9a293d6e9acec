import Lengua.Token

/-!
# Syntax errors

What can be wrong with a list of tokens, and how each fault is reported. Every report
ends with a line: that of the offending token, or, where another token was wanted
next, that of the last token taken before it.
-/

namespace Lengua

/-- A fault in a list of tokens. -/
inductive SyntaxError where
  /-- One kind was wanted after the last token taken, and another came. -/
  | unexpected (wanted found : Kind) (line : Int)
  /-- A token that starts no expression stands where one was wanted. -/
  | noOperand (token : Token)
  /-- A number that does not fit a 64-bit integer. -/
  | notInteger (token : Token)

namespace SyntaxError

/-- The line a syntax error is reported at. -/
def line : SyntaxError → Int
  | unexpected _ _ line => line
  | noOperand token | notInteger token => token.line

/-- The report of a syntax error up to its line. -/
def cause : SyntaxError → Text
  | unexpected wanted found _ =>
    utf8 "Se esperaba que el siguente token fuera " ++ utf8 wanted.name ++
      utf8 " pero se obtuvo " ++ utf8 found.name
  | noOperand token =>
    utf8 "No se encontró ninguna función para parsear " ++
      if token.literal.isEmpty then utf8 token.kind.name else token.literal
  | notInteger token =>
    utf8 "No se pudo interpretar " ++ token.literal ++ utf8 " como entero"

/-- The report of a syntax error. -/
def message (error : SyntaxError) : Text :=
  error.cause ++ utf8 " cerca de la línea " ++ Text.ofInt error.line

end SyntaxError

end Lengua
