import Lengua.Eval

/-!
# Evaluations of one tree

The evaluation of a tree is put together from steps of a few kinds. What two machines share on
each kind of step, and what putting steps together keeps, they share on every tree. Here trees
are gone through once, for any such relation between the steps of two machines; a property of
the steps of one machine is a relation that ignores the second.
-/

namespace Lengua

/-! ## Relations between evaluations -/

/-- A relation between the steps of two machines in a scope that every way of putting steps
together keeps. -/
structure Parallel {First Second : Type} (first : Machine First) (invoke : Invoke First)
    (second : Machine Second) (other : Invoke Second) (scope : ScopeId) where
  /-- Which steps that yield a value are related. -/
  value : Run First Value → Run Second Value → Prop
  /-- Which steps that yield several values are related. -/
  values : Run First (Except Value (List Value)) → Run Second (Except Value (List Value)) → Prop
  /-- Yielding a value. -/
  done : ∀ result, value (.done result) (.done result)
  /-- Yielding no values. -/
  nil : values (.done (.ok [])) (.done (.ok []))
  /-- Looking up a name. -/
  resolve : ∀ id, value (.read (first.resolve scope id)) (.read (second.resolve scope id))
  /-- Binding a name. -/
  bind : ∀ name result, value (.bind scope name result) (.bind scope name result)
  /-- Going on unless there is a signal. -/
  unlessSignal : ∀ {run run' next next'}, value run run' →
    (∀ result, value (next result) (next' result)) →
    value (run.unlessSignal next) (run'.unlessSignal next')
  /-- Putting a value before others. -/
  followedBy : ∀ {run run' rest rest'}, value run run' → values rest rest' →
    values (run.followedBy rest) (run'.followedBy rest')
  /-- Leaving a procedure. -/
  unwrapped : ∀ {run run'}, value run run' → value run.unwrapped run'.unwrapped
  /-- Visiting a node. -/
  visit : ∀ line {run run'}, value run run' → value (first.visit line run) (second.visit line run')
  /-- Visiting a call. -/
  call : ∀ line {run run' rest rest'}, value run run' → values rest rest' →
    value
      (first.visit line (run.unlessSignal fun function => rest.unlessStopped fun args =>
        first.apply invoke function args line))
      (second.visit line (run'.unlessSignal fun function => rest'.unlessStopped fun args =>
        second.apply other function args line))

/-- A call enters a body or just yields a value, and machines with one host do so alike. -/
theorem Machine.apply_related {First Second : Type} (first : Machine First)
    (second : Machine Second) (invoke : Invoke First) (other : Invoke Second)
    (related : Run First Value → Run Second Value → Prop) (host : first.host = second.host)
    (done : ∀ result, related (.done result) (.done result)) (line : Int)
    (enter : ∀ body outer bindings, related (first.enter invoke body outer bindings line)
      (second.enter other body outer bindings line)) (callee : Value) (args : List Value) :
    related (first.apply invoke callee args line) (second.apply other callee args line) := by
  cases callee with
  | procedure params body outer =>
    simp only [Machine.apply]
    split
    · exact enter body outer (params.zip args)
    · exact done _
  | builtin function =>
    simp only [Machine.apply, host]
    exact done _
  | _ => exact done _

namespace Parallel

variable {First Second : Type} {first : Machine First} {invoke : Invoke First}
  {second : Machine Second} {other : Invoke Second} {scope : ScopeId}
  (law : Parallel first invoke second other scope)

/-- Binding the target of a statement. -/
theorem bindTarget (name : Option Ident) (result : Value) :
    law.value (.bindTarget scope name result) (.bindTarget scope name result) := by
  cases name with
  | none => exact law.done result
  | some id => exact law.bind id.name result

mutual

/-- The evaluations of an expression are related. -/
theorem expr : ∀ expr : Expr,
    law.value (expr.eval first invoke scope) (expr.eval second other scope)
  | .absent => law.done _
  | .ident id => law.visit _ (law.resolve id)
  | .int _ _ | .bool _ _ | .str _ _ | .null _ | .procedure _ _ _ => law.visit _ (law.done _)
  | .unary _ _ operand => law.visit _ (law.unlessSignal (expr operand) fun _ => law.done _)
  | .binary _ _ left right => by
    refine law.visit _ (law.unlessSignal (expr left) fun result => ?_)
    exact law.unlessSignal (expr right) fun following => law.done _
  | .choice _ test yes no => by
    refine law.visit _ (law.unlessSignal (expr test) fun result => ?_)
    split
    · exact block yes
    · exact block no
  | .call _ callee args => law.call _ (expr callee) (exprs args)

/-- The evaluations of expressions are related. -/
theorem exprs : ∀ exprs : List Expr,
    law.values (Expr.evalAll first invoke scope exprs) (Expr.evalAll second other scope exprs)
  | [] => law.nil
  | head :: rest => law.followedBy (expr head) (exprs rest)

/-- The evaluations of a statement are related. -/
theorem stmt : ∀ stmt : Stmt,
    law.value (stmt.eval first invoke scope) (stmt.eval second other scope)
  | .absent => law.done _
  | .declare _ name value | .assign _ name value =>
    law.visit _ (law.unlessSignal (expr value) (law.bindTarget name))
  | .giveBack _ value => law.visit _ (law.unlessSignal (expr value) fun _ => law.done _)
  | .expr _ value => law.visit _ (expr value)
  | .block _ inner => law.visit _ (stmts .null inner)

/-- The evaluations of statements are related. -/
theorem stmts (last : Value) : ∀ stmts : List Stmt,
    law.value (Stmt.evalAll first invoke scope last stmts)
      (Stmt.evalAll second other scope last stmts)
  | [] => law.done last
  | head :: rest => law.unlessSignal (stmt head) fun result => stmts result rest

/-- The evaluations of a block are related. -/
theorem block : ∀ block : Block,
    law.value (block.eval first invoke scope) (block.eval second other scope)
  | .absent => law.done _
  | .braces _ inner => stmts .null inner

end

/-- The evaluations of a node are related. -/
theorem node : ∀ node : Node,
    law.value (node.eval first invoke scope) (node.eval second other scope)
  | .program whole => law.visit _ (law.unwrapped (law.stmts .null whole.stmts))
  | .stmt single => law.stmt single
  | .expr single => law.expr single

end Parallel

end Lengua
