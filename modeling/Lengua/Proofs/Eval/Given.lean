import Lengua.Eval

/-!
# What operations give

A sign and the length function give a value that is neither a procedure nor a signal, or else an
error. The error is at the line they are used on, and in words of the language.
-/

namespace Lengua

namespace Value

/-- What an operation at a line gives: a value that is neither a procedure nor a signal, or an error
at the line in words of the language. -/
inductive GivenAt (line : Int) : Value → Prop where
  /-- An integer. -/
  | int (value : Int64) : GivenAt line (.int value)
  /-- A truth value. -/
  | bool (value : Bool) : GivenAt line (.bool value)
  /-- A string. -/
  | str (value : Text) : GivenAt line (.str value)
  /-- An error. -/
  | error {fault : Fault} (told : ∀ words, fault ≠ .reported words) :
    GivenAt line (.error fault line)

/-- A sign before an operand. -/
theorem unary_givenAt (sign : Text) (operand : Value) (line : Int) :
    (operand.unary sign line).GivenAt line := by
  unfold unary
  split
  · exact .bool _
  split
  · split
    · exact .int _
    · exact .error nofun
  · exact .error nofun

/-- A sign between two operands. -/
theorem binary_givenAt (sign : Text) (left right : Value) (line : Int) :
    (binary sign left right line).GivenAt line := by
  have integers (operation : Operation) (a b : Int64) :
      (ofIntegers operation a b line).GivenAt line := by
    cases operation with
    | divide =>
      simp only [ofIntegers]
      split
      · exact .error nofun
      · exact .int _
    | add | subtract | multiply => exact .int _
    | less | greater | equal | notEqual => exact .bool _
  have refused : (error (.badOperation left.type sign right.type) line).GivenAt line :=
    .error nofun
  have strings (operation : Operation) (a b : Text) :
      ((ofStrings? operation a b).getD
        (.error (.badOperation left.type sign right.type) line)).GivenAt line := by
    cases operation with
    | add => exact .str _
    | equal | notEqual => exact .bool _
    | _ => exact refused
  have equals (operation : Operation) (a b : Value) :
      ((ofEquals? operation a b).getD
        (.error (.badOperation left.type sign right.type) line)).GivenAt line := by
    unfold ofEquals?
    split
    case h_5 => exact refused
    all_goals exact .bool _
  unfold binary
  dsimp only
  split
  · exact integers _ _ _
  · exact strings _ _ _
  · split
    · exact equals _ _ _
    · exact .error nofun
  · split
    · exact refused
    · exact .error nofun

/-- The length function. -/
theorem length_givenAt (args : List Value) (line : Int) : (length args line).GivenAt line := by
  unfold length
  split
  · exact .int _
  · exact .error nofun
  · exact .error nofun

end Value

end Lengua
