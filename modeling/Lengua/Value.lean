import Lengua.Tree.Render
import Lengua.Value.Fault

/-!
# Values

What an evaluation yields. Beside the plain values there are two signals: an error, and
a value on its way out of a procedure. A signal ends the construct it occurs in, so it
is never an operand, an argument or the value of a variable.
-/

namespace Lengua

/-- The number of a scope in the forest of scopes. -/
abbrev ScopeId := Nat

/-- A function that is not written in the language. -/
inductive Builtin where
  /-- The length of a string in bytes. -/
  | length
  /-- A function of the host, by its name. -/
  | host (name : Text)

/-- The name of a builtin function. -/
def Builtin.name : Builtin → Text
  | .length => utf8 "longitud"
  | .host name => name

/-- The outcome of an evaluation. -/
inductive Value where
  /-- A 64-bit integer. -/
  | int (value : Int64)
  /-- A truth value. -/
  | bool (value : Bool)
  /-- A byte string. -/
  | str (value : Text)
  /-- The null value. -/
  | null
  /-- A runtime error and the line it occurred on. -/
  | error (fault : Fault) (line : Int)
  /-- A value on its way out of a procedure. -/
  | returned (value : Value)
  /-- The way out of a procedure, with no value. -/
  | returnedNothing
  /-- A procedure with its parameters, its body and the scope it was made in. -/
  | procedure (params : List Text) (body : Block) (scope : Option ScopeId)
  /-- A builtin function. -/
  | builtin (function : Builtin)

namespace Value

/-- The type of a value. -/
def type : Value → ValueType
  | int _ => .integer
  | bool _ => .boolean
  | str _ => .string
  | null => .null
  | error _ _ => .error
  | returned _ | returnedNothing => .returned
  | procedure _ _ _ => .procedure
  | builtin _ => .builtin

/-- The text a value is shown as. -/
def inspect : Value → Text
  | int value => Text.ofInt value.toInt
  | bool value => Text.ofBool value
  | str value => value
  | null | returnedNothing => utf8 "nulo"
  | error fault line => fault.message line
  | returned value => value.inspect
  | procedure params _ _ =>
    utf8 "procedimiento(" ++ Text.listed params ++ utf8 ") \x7b...\x7d"
  | builtin _ => utf8 "builtin function"

/-- Everything counts as true except null and the false truth value. -/
def isTruthy : Value → Bool
  | null => false
  | bool value => value
  | _ => true

/-- Whether a value is a runtime error. -/
def isError : Value → Bool
  | error _ _ => true
  | _ => false

/-- Whether a value ends the construct it occurs in. -/
def isSignal : Value → Bool
  | error _ _ | returned _ | returnedNothing => true
  | _ => false

/-- A value once it has left the procedure. -/
def unwrapped : Value → Value
  | returned value => value
  | returnedNothing => null
  | value => value

end Value

end Lengua
