import Lengua.Builtin
import Lengua.Eval.Meter

/-!
# Evaluation

The value of a tree in a scope. Evaluation follows the tree; only a call leads to
another one, the body of a procedure, and so the evaluation of a tree is defined for
any way of running bodies (`Expr.eval` and its companions), and bodies are then run up
to a given number of nested calls (`Machine.invoke`). A run that needs more has no
outcome. With a bound on gas or on depth that number can be chosen so that every run
has one (`Limits.nesting`).

Every node is visited once before anything else happens to it. Blocks of choices and
procedures are no nodes of their own; a block among statements is.
-/

namespace Lengua

/-- What an evaluation changes: the scopes and the meter's tally. -/
structure World (Tally : Type) where
  /-- All scopes. -/
  forest : Forest
  /-- What the meter remembers. -/
  tally : Tally

/-- A step of an evaluation. It has no outcome when calls nest too deep to be followed. -/
def Run (Tally Outcome : Type) : Type := World Tally → Option (Outcome × World Tally)

namespace Run

variable {Tally : Type}

/-- Yields an outcome and changes nothing. -/
def done {Outcome : Type} (outcome : Outcome) : Run Tally Outcome := fun world =>
  some (outcome, world)

/-- Yields a value that depends on the scopes. -/
def read (value : Forest → Value) : Run Tally Value := fun world =>
  some (value world.forest, world)

/-- Goes on with the value of a step, unless that is a signal, which is then the outcome. -/
def unlessSignal (first : Run Tally Value) (next : Value → Run Tally Value) : Run Tally Value :=
  fun world =>
    match first world with
    | none => none
    | some (value, after) => if value.isSignal then some (value, after) else next value after

/-- Goes on with the values of a step, unless it ended in a signal, which is then the outcome. -/
def unlessStopped (first : Run Tally (Except Value (List Value)))
    (next : List Value → Run Tally Value) : Run Tally Value :=
  fun world =>
    match first world with
    | none => none
    | some (.error signal, after) => some (signal, after)
    | some (.ok values, after) => next values after

/-- Puts a value before those of a step, unless one of the two is a signal. -/
def followedBy (first : Run Tally Value) (rest : Run Tally (Except Value (List Value))) :
    Run Tally (Except Value (List Value)) :=
  fun world =>
    match first world with
    | none => none
    | some (value, after) =>
      if value.isSignal then some (.error value, after)
      else match rest after with
        | none => none
        | some (.error signal, last) => some (.error signal, last)
        | some (.ok values, last) => some (.ok (value :: values), last)

/-- Binds a name in a scope and yields the value. -/
def bind (scope : ScopeId) (name : Text) (value : Value) : Run Tally Value := fun world =>
  some (value, { world with forest := world.forest.set scope name value })

/-- Yields the value of a step once it has left the procedure. -/
def unwrapped (step : Run Tally Value) : Run Tally Value := fun world =>
  match step world with
  | none => none
  | some (value, after) => some (value.unwrapped, after)

end Run

/-- The surroundings of an evaluation, which stay as they are. -/
structure Machine (Tally : Type) where
  /-- What watches over it. -/
  meter : Meter Tally
  /-- The functions of the host. -/
  host : Host

/-- A way of running the body of a procedure in a scope. -/
abbrev Invoke (Tally : Type) : Type := Block → ScopeId → Run Tally Value

namespace Machine

variable {Tally : Type}

/-- Visits a node, if the meter lets it. -/
def visit (machine : Machine Tally) (line : Int) (step : Run Tally Value) : Run Tally Value :=
  fun world =>
    match machine.meter.visit line world.forest world.tally with
    | none => some (.error .gasExhausted line, world)
    | some tally => step { world with tally }

/-- The value of a name: what the scopes bind it to, or else a function of the host, or else a
standard one. -/
def resolve (machine : Machine Tally) (scope : ScopeId) (id : Ident) (forest : Forest) : Value :=
  match forest.get? scope id.name with
  | some value => value
  | none =>
    match (machine.host.find? id.name).or (Builtin.find? id.name) with
    | some function => .builtin function
    | none => .error (.undefined id.name) id.token.line

/-- Runs a body in a fresh scope inside the procedure's own, if the meter lets it. -/
def enter (machine : Machine Tally) (invoke : Invoke Tally) (body : Block)
    (outer : Option ScopeId) (bindings : List (Text × Value)) (line : Int) : Run Tally Value :=
  fun world =>
    match machine.meter.enter line world.tally with
    | none => some (.error .tooDeep line, world)
    | some tally =>
      let (scope, forest) := world.forest.add outer
      match invoke body scope ⟨forest.setAll scope bindings, tally⟩ with
      | none => none
      | some (value, after) =>
        some (value.unwrapped, { after with tally := machine.meter.leave after.tally })

/-- Calls a value. -/
def apply (machine : Machine Tally) (invoke : Invoke Tally) (callee : Value) (args : List Value)
    (line : Int) : Run Tally Value :=
  match callee with
  | .procedure params body outer =>
    if params.length = args.length then
      machine.enter invoke body outer (params.zip args) line
    else .done (.error (.wrongArity params.length args.length) line)
  | .builtin function => .done (machine.host.answer function args line)
  | other => .done (.error (.notCallable other.type) line)

end Machine

section

variable {Tally : Type} (machine : Machine Tally) (invoke : Invoke Tally) (scope : ScopeId)

/-- Binds the target of a statement to its value. Without a target there is only the value. -/
def Run.bindTarget (name : Option Ident) (value : Value) : Run Tally Value :=
  match name with
  | none => .done value
  | some id => .bind scope id.name value

mutual

/-- Evaluates an expression. -/
def Expr.eval : Expr → Run Tally Value
  | .absent => .done .null
  | .ident id => machine.visit id.token.line (.read (machine.resolve scope id))
  | .int token value => machine.visit token.line (.done (.int value))
  | .bool token value => machine.visit token.line (.done (.bool value))
  | .str token value => machine.visit token.line (.done (.str value))
  | .null token => machine.visit token.line (.done .null)
  | .unary token sign operand =>
    machine.visit token.line (operand.eval.unlessSignal fun value =>
      .done (value.unary sign token.line))
  | .binary token sign left right =>
    machine.visit token.line (left.eval.unlessSignal fun first =>
      right.eval.unlessSignal fun second => .done (.binary sign first second token.line))
  | .choice token test yes no =>
    machine.visit token.line (test.eval.unlessSignal fun value =>
      if value.isTruthy then yes.eval else no.eval)
  | .procedure token params body =>
    machine.visit token.line (.done (.procedure (params.map Ident.name) body (some scope)))
  | .call token callee args =>
    machine.visit token.line (callee.eval.unlessSignal fun function =>
      (Expr.evalAll args).unlessStopped fun values =>
        machine.apply invoke function values token.line)

/-- Evaluates expressions from the left, up to the first signal. -/
def Expr.evalAll : List Expr → Run Tally (Except Value (List Value))
  | [] => .done (.ok [])
  | expr :: rest => expr.eval.followedBy (Expr.evalAll rest)

/-- Evaluates a statement. -/
def Stmt.eval : Stmt → Run Tally Value
  | .absent => .done .null
  | .declare token name value | .assign token name value =>
    machine.visit token.line (value.eval.unlessSignal fun result => .bindTarget scope name result)
  | .giveBack token value =>
    machine.visit token.line (value.eval.unlessSignal fun result => .done (.returned result))
  | .expr token value => machine.visit token.line value.eval
  | .block token stmts => machine.visit token.line (Stmt.evalAll .null stmts)

/-- Evaluates statements in order, up to the first signal. The outcome is that of the last one
evaluated, and `last` if there is none. -/
def Stmt.evalAll (last : Value) : List Stmt → Run Tally Value
  | [] => .done last
  | stmt :: rest => stmt.eval.unlessSignal fun value => Stmt.evalAll value rest

/-- Evaluates a block. -/
def Block.eval : Block → Run Tally Value
  | .absent => .done .null
  | .braces _ stmts => Stmt.evalAll .null stmts

end

/-- Evaluates a program. A value on its way out of a procedure has nowhere further to go. -/
def Program.eval (program : Program) : Run Tally Value :=
  machine.visit program.line (Stmt.evalAll machine invoke scope .null program.stmts).unwrapped

/-- Evaluates a node. -/
def Node.eval : Node → Run Tally Value
  | .program whole => whole.eval machine invoke scope
  | .stmt single => single.eval machine invoke scope
  | .expr single => single.eval machine invoke scope

end

/-- Runs bodies of procedures, following at most a given number of nested calls. -/
def Machine.invoke {Tally : Type} (machine : Machine Tally) : Nat → Invoke Tally
  | 0, _, _ => fun _ => none
  | bound + 1, body, scope => body.eval machine (machine.invoke bound) scope

/-- Evaluates a node in a scope of a forest under limits. There is no outcome only when the
limits bound neither gas nor depth and calls nest deeper than `fallback`. -/
def Limits.evaluate (limits : Limits) (host : Host) (fallback : Nat) (node : Node)
    (scope : ScopeId) (forest : Forest) : Option (Value × Forest) :=
  let machine : Machine Budget := ⟨limits.meter, host⟩
  match node.eval machine (machine.invoke (limits.nesting fallback)) scope
      ⟨forest, limits.budget⟩ with
  | none => none
  | some (value, world) => some (value, world.forest)

end Lengua
