import Lengua.Value

/-!
# Operations on values

Integer arithmetic wraps around at 64 bits and division is truncated toward zero.
Strings can be joined and compared for equality; truth values and null only compared.
A sign is found by its text, and one without a meaning for its operands is a fault.
-/

namespace Lengua

/-- The operations on two operands. -/
inductive Operation where
  /-- Sum, or the joining of strings. -/
  | add
  /-- Difference. -/
  | subtract
  /-- Product. -/
  | multiply
  /-- Quotient, truncated toward zero. -/
  | divide
  /-- Strictly smaller. -/
  | less
  /-- Strictly larger. -/
  | greater
  /-- Equality. -/
  | equal
  /-- Inequality. -/
  | notEqual

/-- The signs of the operations. -/
def Operation.signs : List (Text × Operation) :=
  [(utf8 "+", .add), (utf8 "-", .subtract), (utf8 "*", .multiply), (utf8 "/", .divide),
    (utf8 "<", .less), (utf8 ">", .greater), (utf8 "==", .equal), (utf8 "!=", .notEqual)]

/-- The operation a sign stands for. -/
def Operation.ofSign? (sign : Text) : Option Operation := Operation.signs.lookup sign

namespace Value

/-- An operation on integers. -/
def ofIntegers (operation : Operation) (left right : Int64) (line : Int) : Value :=
  match operation with
  | .add => .int (left + right)
  | .subtract => .int (left - right)
  | .multiply => .int (left * right)
  | .divide => if right = 0 then .error .divisionByZero line else .int (left / right)
  | .less => .bool (left < right)
  | .greater => .bool (right < left)
  | .equal => .bool (left == right)
  | .notEqual => .bool (left != right)

/-- An operation on strings, if strings have it. -/
def ofStrings? (operation : Operation) (left right : Text) : Option Value :=
  match operation with
  | .add => some (.str (left ++ right))
  | .equal => some (.bool (left == right))
  | .notEqual => some (.bool (left != right))
  | _ => none

/-- An operation on values of one type that has equality only, if it has that. -/
def ofEquals? (operation : Operation) (left right : Value) : Option Value :=
  match operation, left, right with
  | .equal, .bool a, .bool b => some (.bool (a == b))
  | .notEqual, .bool a, .bool b => some (.bool (a != b))
  | .equal, .null, .null => some (.bool true)
  | .notEqual, .null, .null => some (.bool false)
  | _, _, _ => none

/-- The value of a sign between two operands. -/
def binary (sign : Text) (left right : Value) (line : Int) : Value :=
  let refused := Value.error (.badOperation left.type sign right.type) line
  match Operation.ofSign? sign, left, right with
  | some operation, .int a, .int b => ofIntegers operation a b line
  | some operation, .str a, .str b => (ofStrings? operation a b).getD refused
  | some operation, a, b =>
    if a.type = b.type then (ofEquals? operation a b).getD refused
    else .error (.mismatch a.type sign b.type) line
  | none, a, b => if a.type = b.type then refused else .error (.mismatch a.type sign b.type) line

/-- The value of a sign before an operand. -/
def unary (sign : Text) (operand : Value) (line : Int) : Value :=
  if sign = utf8 "!" then .bool (!operand.isTruthy)
  else if sign = utf8 "-" then
    match operand with
    | .int value => .int (-value)
    | _ => .error (.badSign sign operand.type) line
  else .error (.badSign sign operand.type) line

/-- The length in bytes of the only argument. -/
def length (args : List Value) (line : Int) : Value :=
  match args with
  | [.str value] => .int (Int64.ofNat value.length)
  | [other] => .error (.lengthOperand other.type) line
  | _ => .error (.lengthArity args.length) line

end Value

end Lengua
