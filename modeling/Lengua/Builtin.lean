import Lengua.Value.Operation

/-!
# Builtin functions

The interpreter has one function of its own, the length of a string. A host may supply
others; those it shows to programs come before the interpreter's own, so a host can
replace it. A function may answer with nothing, which counts as null.
-/

namespace Lengua

/-- What a function does with its arguments and the line of the call. -/
abbrev Behaviour := List Value → Int → Option Value

/-- The functions a host supplies. -/
structure Host where
  /-- The names programs can see. -/
  visible : List Text
  /-- What each function does; a name may stand for a function that does nothing at all. -/
  behaviour? : Text → Option Behaviour

namespace Host

/-- A host without functions. -/
def empty : Host := ⟨[], fun _ => none⟩

/-- The function of the host a program finds under a name. A function that does nothing is not
shown. -/
def find? (host : Host) (name : Text) : Option Builtin :=
  if host.visible.contains name && (host.behaviour? name).isSome then some (.host name)
  else none

/-- The answer of a builtin function. -/
def answer (host : Host) (function : Builtin) (args : List Value) (line : Int) : Value :=
  match function with
  | .length => Value.length args line
  | .host name =>
    match host.behaviour? name with
    | some behaviour => ((behaviour args line).getD .null).unwrapped
    | none => .null

end Host

namespace Builtin

/-- The functions every program has, in increasing order of their names. -/
def standard : List Builtin := [.length]

/-- The standard function with a name. -/
def find? (name : Text) : Option Builtin := standard.find? (·.name == name)

end Builtin

end Lengua
