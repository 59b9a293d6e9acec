import Lengua.Text

/-!
# Runtime faults

The types of values, and the ways in which an evaluation goes wrong. A fault says what
happened; where it happened is kept beside it, and `Fault.message` puts both in words.
-/

namespace Lengua

/-- The types of values. -/
inductive ValueType where
  /-- 64-bit integers. -/
  | integer
  /-- Truth values. -/
  | boolean
  /-- The null value. -/
  | null
  /-- A value on its way out of a procedure. -/
  | returned
  /-- A runtime error. -/
  | error
  /-- A procedure written in the language. -/
  | procedure
  /-- Byte strings. -/
  | string
  /-- A function supplied by the interpreter or its host. -/
  | builtin
deriving DecidableEq

namespace ValueType

/-- The types in the order of their codes. -/
def known : List ValueType := [integer, boolean, null, returned, error, procedure, string, builtin]

/-- The name of a type in diagnostics. -/
def name : ValueType → String
  | integer => "INTEGER"
  | boolean => "BOOLEAN"
  | null => "NULL"
  | returned => "RETURN"
  | error => "ERROR"
  | procedure => "FUNCTION"
  | string => "STRING"
  | builtin => "BUILTIN"

/-- The name of the type with a given code. -/
def nameOfCode (code : Nat) : String := (known[code]?.map name).getD "UNKNOWN"

end ValueType

/-- What can go wrong while a program runs. -/
inductive Fault where
  /-- A name that nothing binds. -/
  | undefined (name : Text)
  /-- An operation on values of two types. -/
  | mismatch (left : ValueType) (sign : Text) (right : ValueType)
  /-- A sign that does not apply to its operand. -/
  | badSign (sign : Text) (operand : ValueType)
  /-- An operation that its operands do not have. -/
  | badOperation (left : ValueType) (sign : Text) (right : ValueType)
  /-- A division by zero. -/
  | divisionByZero
  /-- The evaluation has visited as many nodes as it may. -/
  | gasExhausted
  /-- As many calls are active as may be. -/
  | tooDeep
  /-- A procedure called with the wrong number of arguments. -/
  | wrongArity (wanted given : Nat)
  /-- A call of a value that is no procedure. -/
  | notCallable (found : ValueType)
  /-- The length function called with other than one argument. -/
  | lengthArity (given : Nat)
  /-- The length of a value that is no string. -/
  | lengthOperand (found : ValueType)
  /-- A fault reported by the host, in its own words. -/
  | reported (words : Text)

/-- The report of a fault at a line. Only a fault in the host's words leaves the line out. -/
def Fault.message (fault : Fault) (line : Int) : Text :=
  let place := utf8 "cerca de la línea " ++ Text.ofInt line
  match fault with
  | .undefined name =>
    utf8 "Identificador sin definir: \"" ++ name ++ utf8 "\" " ++ place
  | .mismatch left sign right =>
    utf8 "Discrepancia de tipos: " ++ utf8 left.name ++ utf8 " " ++ sign ++ utf8 " " ++
      utf8 right.name ++ utf8 " " ++ place
  | .badSign sign operand =>
    utf8 "Operador desconocido: " ++ sign ++ utf8 operand.name ++ utf8 " " ++ place
  | .badOperation left sign right =>
    utf8 "Operador desconocido: " ++ utf8 left.name ++ utf8 " " ++ sign ++ utf8 " " ++
      utf8 right.name ++ utf8 " " ++ place
  | .divisionByZero => utf8 "División entre cero " ++ place
  | .gasExhausted => utf8 "Límite de ejecución agotado " ++ place
  | .tooDeep => utf8 "Límite de recursión excedido " ++ place
  | .wrongArity wanted given =>
    utf8 "Cantidad errónea de argumentos para la función " ++ place ++ utf8 ", se esperaban " ++
      Text.ofNat wanted ++ utf8 " pero se obtuvo " ++ Text.ofNat given
  | .notCallable found => utf8 "No es una function: " ++ utf8 found.name ++ utf8 " " ++ place
  | .lengthArity given =>
    utf8 "Número incorrecto de argumentos para longitud, se recibieron " ++ Text.ofNat given ++
      utf8 ", se esperaba 1, " ++ place
  | .lengthOperand found =>
    utf8 "Argumento para longitud sin soporte, se recibió " ++ utf8 found.name ++ utf8 " " ++ place
  | .reported words => words

end Lengua
