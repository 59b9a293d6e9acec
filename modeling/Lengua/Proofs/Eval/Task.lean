import Lengua.Proofs.Eval.Lockstep

/-!
# Evaluations inside evaluations

The evaluation of a tree leads to evaluations of its parts, and a call leads to that of a body. A
task is anything that is evaluated on the way, with the scope it is evaluated in. Here it is said
once which tasks a task starts, in which world, and what must have ended before: an operand is
evaluated when those before it have given plain values, a statement when those before it have.
Everything an evaluation comes to is reached by such steps.
-/

namespace Lengua

/-- Something that is evaluated. -/
inductive Task where
  /-- A whole program in a scope. -/
  | program (whole : Program) (scope : ScopeId)
  /-- A statement in a scope. -/
  | stmt (single : Stmt) (scope : ScopeId)
  /-- An expression in a scope. -/
  | expr (single : Expr) (scope : ScopeId)
  /-- A block in a scope. -/
  | block (whole : Block) (scope : ScopeId)
  /-- A call of a value, made on a line. -/
  | call (callee : Value) (args : List Value) (line : Int)

/-- The expression that the evaluation of an expression begins with, and the line visited before:
the operand of a sign or the left one of two, the test of a choice, what is called. -/
def Expr.first? : Expr → Option (Int × Expr)
  | .unary token _ operand => some (token.line, operand)
  | .binary token _ left _ => some (token.line, left)
  | .choice token test _ _ => some (token.line, test)
  | .call token callee _ => some (token.line, callee)
  | _ => none

/-- The expression of a statement, and the line visited before: the value of a declaration, of an
assignment or at the end of a procedure, or the statement itself. -/
def Stmt.value? : Stmt → Option (Int × Expr)
  | .declare token _ value | .assign token _ value | .giveBack token value | .expr token value =>
    some (token.line, value)
  | _ => none

variable {Tally Outcome : Type}

/-- A step ends in an outcome if it does once enough nested calls are followed. -/
def Machine.Ends (machine : Machine Tally) (step : Invoke Tally → Run Tally Outcome)
    (world : World Tally) (outcome : Outcome) (after : World Tally) : Prop :=
  ∃ enough, ∀ bound, enough ≤ bound → step (machine.invoke bound) world = some (outcome, after)

/-- The meter lets a node be visited. -/
def Machine.Visits (machine : Machine Tally) (line : Int) (world inside : World Tally) : Prop :=
  ∃ tally, machine.meter.visit line world.forest world.tally = some tally ∧
    inside = { world with tally }

namespace Task

/-- The evaluation of a task. -/
def run (machine : Machine Tally) (invoke : Invoke Tally) : Task → Run Tally Value
  | .program whole scope => whole.eval machine invoke scope
  | .stmt single scope => single.eval machine invoke scope
  | .expr single scope => single.eval machine invoke scope
  | .block whole scope => whole.eval machine invoke scope
  | .call callee args line => machine.apply invoke callee args line

/-- The line on which the node of a task is visited. -/
def line? : Task → Option Int
  | .program whole _ => some whole.line
  | .stmt single _ => single.token?.map (·.line)
  | .expr single _ => single.token?.map (·.line)
  | .block _ _ | .call _ _ _ => none

/-- What the evaluation of a task yields. -/
def Yields (task : Task) (machine : Machine Tally) (world : World Tally) (value : Value)
    (after : World Tally) : Prop :=
  machine.Ends (fun invoke => task.run machine invoke) world value after

/-- Which tasks a task starts. -/
inductive Starts (machine : Machine Tally) : Task → World Tally → Task → World Tally → Prop where
  /-- The first part of an expression. -/
  | first {expr part : Expr} {line : Int} {scope : ScopeId} {world inside : World Tally}
    (begins : expr.first? = some (line, part)) (visits : machine.Visits line world inside) :
    Starts machine (.expr expr scope) world (.expr part scope) inside
  /-- The second of two operands. -/
  | right {token : Token} {sign : Text} {left right : Expr} {scope : ScopeId}
    {world inside between : World Tally} {value : Value}
    (visits : machine.Visits token.line world inside)
    (first : (Task.expr left scope).Yields machine inside value between)
    (plain : value.isSignal = false) :
    Starts machine (.expr (.binary token sign left right) scope) world (.expr right scope) between
  /-- The branch of a choice that is taken. -/
  | branch {token : Token} {test : Expr} {yes no : Block} {scope : ScopeId}
    {world inside between : World Tally} {value : Value}
    (visits : machine.Visits token.line world inside)
    (tested : (Task.expr test scope).Yields machine inside value between)
    (plain : value.isSignal = false) :
    Starts machine (.expr (.choice token test yes no) scope) world
      (.block (if value.isTruthy then yes else no) scope) between
  /-- An argument. -/
  | argument (before rest : List Expr) {token : Token} {callee arg : Expr} {scope : ScopeId}
    {world inside between last : World Tally} {function : Value} {values : List Value}
    (visits : machine.Visits token.line world inside)
    (called : (Task.expr callee scope).Yields machine inside function between)
    (plain : function.isSignal = false)
    (others : machine.Ends (fun invoke => Expr.evalAll machine invoke scope before) between
      (.ok values) last) :
    Starts machine (.expr (.call token callee (before ++ arg :: rest)) scope) world
      (.expr arg scope) last
  /-- The call itself. -/
  | application {token : Token} {callee : Expr} {args : List Expr} {scope : ScopeId}
    {world inside between last : World Tally} {function : Value} {values : List Value}
    (visits : machine.Visits token.line world inside)
    (called : (Task.expr callee scope).Yields machine inside function between)
    (plain : function.isSignal = false)
    (others : machine.Ends (fun invoke => Expr.evalAll machine invoke scope args) between
      (.ok values) last) :
    Starts machine (.expr (.call token callee args) scope) world
      (.call function values token.line) last
  /-- The expression of a statement. -/
  | value {stmt : Stmt} {part : Expr} {line : Int} {scope : ScopeId} {world inside : World Tally}
    (holds : stmt.value? = some (line, part)) (visits : machine.Visits line world inside) :
    Starts machine (.stmt stmt scope) world (.expr part scope) inside
  /-- A statement of a block among statements. -/
  | nested (before rest : List Stmt) {token : Token} {stmt : Stmt} {scope : ScopeId}
    {world inside between : World Tally} {value : Value}
    (visits : machine.Visits token.line world inside)
    (others : machine.Ends (fun invoke => Stmt.evalAll machine invoke scope .null before) inside
      value between)
    (plain : value.isSignal = false) :
    Starts machine (.stmt (.block token (before ++ stmt :: rest)) scope) world
      (.stmt stmt scope) between
  /-- A statement of a branch or of the body of a procedure. -/
  | inner (before rest : List Stmt) {token : Token} {stmt : Stmt} {scope : ScopeId}
    {world between : World Tally} {value : Value}
    (others : machine.Ends (fun invoke => Stmt.evalAll machine invoke scope .null before) world
      value between)
    (plain : value.isSignal = false) :
    Starts machine (.block (.braces token (before ++ stmt :: rest)) scope) world
      (.stmt stmt scope) between
  /-- A statement of a program. -/
  | outermost (before rest : List Stmt) {stmt : Stmt} {scope : ScopeId}
    {world inside between : World Tally} {value : Value}
    (visits : machine.Visits (Program.line ⟨before ++ stmt :: rest⟩) world inside)
    (others : machine.Ends (fun invoke => Stmt.evalAll machine invoke scope .null before) inside
      value between)
    (plain : value.isSignal = false) :
    Starts machine (.program ⟨before ++ stmt :: rest⟩ scope) world (.stmt stmt scope) between
  /-- The body of a procedure that is called, in a fresh scope. -/
  | body {params : List Text} {body : Block} {outer : Option ScopeId} {args : List Value}
    {line : Int} {world : World Tally} {tally : Tally} (arity : params.length = args.length)
    (enters : machine.meter.enter line world.tally = some tally) :
    Starts machine (.call (.procedure params body outer) args line) world
      (.block body (world.forest.add outer).1)
      ⟨(world.forest.add outer).2.setAll (world.forest.add outer).1 (params.zip args), tally⟩

/-- Which tasks a task comes to, if only some tasks are looked into. -/
inductive Reaches (machine : Machine Tally) (through : Task → Prop) :
    Task → World Tally → Task → World Tally → Prop where
  /-- The task itself. -/
  | here {task : Task} {world : World Tally} : Reaches machine through task world task world
  /-- What a task comes to that it starts. -/
  | step {outer next inner : Task} {around between world : World Tally} (may : through outer)
    (starts : Starts machine outer around next between)
    (further : Reaches machine through next between inner world) :
    Reaches machine through outer around inner world

/-- What a task comes to comes to more. -/
theorem Reaches.trans {machine : Machine Tally} {through : Task → Prop} {outer next inner : Task}
    {around between world : World Tally} (first : Reaches machine through outer around next between)
    (second : Reaches machine through next between inner world) :
    Reaches machine through outer around inner world := by
  induction first with
  | here => exact second
  | step may starts further ih => exact .step may starts (ih second)

/-- Looking into more tasks. -/
theorem Reaches.weaken {machine : Machine Tally} {through also : Task → Prop}
    (le : ∀ task, through task → also task) {outer inner : Task} {around world : World Tally}
    (reaches : Reaches machine through outer around inner world) :
    Reaches machine also outer around inner world := by
  induction reaches with
  | here => exact .here
  | step may starts further ih => exact .step (le _ may) starts ih

end Task

/-- The evaluation of a node in a scope. -/
def Node.task (scope : ScopeId) : Node → Task
  | .program whole => .program whole scope
  | .stmt single => .stmt single scope
  | .expr single => .expr single scope

/-- The evaluation of a node is that of its task. -/
theorem Node.run_task (machine : Machine Tally) (invoke : Invoke Tally) (scope : ScopeId)
    (node : Node) : (node.task scope).run machine invoke = node.eval machine invoke scope := by
  cases node <;> rfl

/-! ## Steps that have come some way -/

/-- Going on after a plain value. -/
theorem Run.unlessSignal_of_plain {run : Run Tally Value} {world between : World Tally}
    {value : Value} (ran : run world = some (value, between)) (plain : value.isSignal = false)
    (next : Value → Run Tally Value) : run.unlessSignal next world = next value between := by
  simp [Run.unlessSignal, ran, plain]

/-- Going on after values. -/
theorem Run.unlessStopped_of_ok {run : Run Tally (Except Value (List Value))}
    {world between : World Tally} {values : List Value}
    (ran : run world = some (.ok values, between)) (next : List Value → Run Tally Value) :
    run.unlessStopped next world = next values between := by
  simp [Run.unlessStopped, ran]

section

variable {machine : Machine Tally} {invoke : Invoke Tally} {scope : ScopeId}
  {world inside between : World Tally}

/-- Visiting a node that the meter lets be visited. -/
theorem Machine.Visits.visit_eq {line : Int} (visits : machine.Visits line world inside)
    (run : Run Tally Value) : machine.visit line run world = run inside := by
  obtain ⟨tally, passed, rfl⟩ := visits
  simp [Machine.visit, passed]

/-- The evaluation of an expression begins with its first part. -/
theorem Expr.eval_of_first {expr part : Expr} {line : Int}
    (begins : expr.first? = some (line, part)) :
    ∃ next, expr.eval machine invoke scope =
      machine.visit line ((part.eval machine invoke scope).unlessSignal next) := by
  cases expr with
  | unary | binary | choice | call =>
    cases begins
    exact ⟨_, Expr.eval.eq_def ..⟩
  | _ => cases begins

/-- Expressions after others that gave values. -/
theorem Expr.evalAll_append_of_ok {before : List Expr} {values : List Value}
    (ran : Expr.evalAll machine invoke scope before world = some (.ok values, between))
    (rest : List Expr) :
    Expr.evalAll machine invoke scope (before ++ rest) world =
      (Expr.evalAll machine invoke scope rest between).map fun found =>
        (found.1.map (values ++ ·), found.2) := by
  induction before generalizing world values with
  | nil =>
    cases ran
    rw [List.nil_append]
    cases evalAll machine invoke scope rest between with
    | none => rfl
    | some found =>
      obtain ⟨outcome, last⟩ := found
      cases outcome <;> rfl
  | cons expr later ih =>
    rw [evalAll] at ran
    obtain ⟨value, mid, others, ranFirst, plain, ranLater, rfl⟩ :=
      Run.followedBy_eq_ok_iff.mp ran
    simp only [List.cons_append, evalAll, Run.followedBy, ranFirst, plain, ih ranLater]
    cases evalAll machine invoke scope rest between with
    | none => rfl
    | some found =>
      obtain ⟨outcome, last⟩ := found
      cases outcome <;> rfl

/-- Statements after others that gave a plain value. -/
theorem Stmt.evalAll_append_of_plain {before : List Stmt} {last value : Value}
    (ran : Stmt.evalAll machine invoke scope last before world = some (value, between))
    (plain : value.isSignal = false) (rest : List Stmt) :
    Stmt.evalAll machine invoke scope last (before ++ rest) world =
      Stmt.evalAll machine invoke scope value rest between := by
  induction before generalizing last world with
  | nil =>
    cases ran
    rfl
  | cons stmt later ih =>
    rw [Stmt.evalAll] at ran
    obtain ⟨first, mid, ranFirst, ending⟩ := Run.unlessSignal_eq_some_iff.mp ran
    rcases ending with ⟨signal, rfl, rfl⟩ | ⟨plainFirst, ranLater⟩
    · rw [plain] at signal
      cases signal
    · rw [List.cons_append, Stmt.evalAll, Run.unlessSignal_of_plain ranFirst plainFirst]
      exact ih ranLater

/-! ## Outcomes -/

namespace Machine.Ends

variable {Other Another : Type} {step : Invoke Tally → Run Tally Outcome} {outcome : Outcome}
  {after : World Tally}

/-- A step whose outcome follows from that of another. -/
theorem imp {other : Invoke Tally → Run Tally Other} {start last : World Tally} {found : Other}
    (ends : machine.Ends other start found last)
    (follows : ∀ invoke, other invoke start = some (found, last) →
      step invoke world = some (outcome, after)) :
    machine.Ends step world outcome after := by
  obtain ⟨enough, ended⟩ := ends
  exact ⟨enough, fun bound le => follows _ (ended bound le)⟩

/-- A step whose outcome follows from that of two others. -/
theorem imp₂ {other : Invoke Tally → Run Tally Other} {another : Invoke Tally → Run Tally Another}
    {start last start' last' : World Tally} {found : Other} {found' : Another}
    (ends : machine.Ends other start found last) (ends' : machine.Ends another start' found' last')
    (follows : ∀ invoke, other invoke start = some (found, last) →
      another invoke start' = some (found', last') → step invoke world = some (outcome, after)) :
    machine.Ends step world outcome after := by
  obtain ⟨enough, ended⟩ := ends
  obtain ⟨enough', ended'⟩ := ends'
  refine ⟨max enough enough', fun bound le => follows _ (ended bound ?_) (ended' bound ?_)⟩
  · exact Nat.le_trans (Nat.le_max_left ..) le
  · exact Nat.le_trans (Nat.le_max_right ..) le

/-- A step ends in one way. -/
theorem unique {other : Outcome} {last : World Tally} (ends : machine.Ends step world outcome after)
    (ends' : machine.Ends step world other last) : outcome = other ∧ after = last := by
  obtain ⟨enough, ended⟩ := ends
  obtain ⟨enough', ended'⟩ := ends'
  have first := ended (max enough enough') (Nat.le_max_left ..)
  have second := ended' (max enough enough') (Nat.le_max_right ..)
  rw [first] at second
  exact Prod.mk.inj (Option.some.inj second)

end Machine.Ends

/-- What ends once enough nested calls are followed. -/
theorem Task.Yields.ofRun {task : Task} {bound : Nat} {value : Value} {after : World Tally}
    (ran : task.run machine (machine.invoke bound) world = some (value, after)) :
    task.Yields machine world value after := by
  refine ⟨bound, fun more le => ?_⟩
  have bodies := (Lockstep.self machine).invoke le
  let law (scope : ScopeId) := (Lockstep.self machine).parallel bodies scope
  have follows : (Lockstep.self machine).Follows id (task.run machine (machine.invoke bound))
      (task.run machine (machine.invoke more)) := by
    cases task with
    | program whole scope => exact ((law scope).node (.program whole)).1
    | stmt single scope => exact ((law scope).stmt single).1
    | expr single scope => exact ((law scope).expr single).1
    | block whole scope => exact ((law scope).block whole).1
    | call callee args line => exact (Lockstep.Together.apply bodies callee args line).1
  exact follows.ofSelf ran

/-- Expressions that end once enough nested calls are followed. -/
theorem Expr.ends_of_evalAll {exprs : List Expr} {bound : Nat}
    {outcome : Except Value (List Value)} {after : World Tally}
    (ran : Expr.evalAll machine (machine.invoke bound) scope exprs world = some (outcome, after)) :
    machine.Ends (fun invoke => Expr.evalAll machine invoke scope exprs) world outcome after := by
  refine ⟨bound, fun more le => ?_⟩
  have law := ((Lockstep.self machine).parallel ((Lockstep.self machine).invoke le) scope).exprs
    exprs
  exact law.1.ofSelf ran

/-- Statements that end once enough nested calls are followed. -/
theorem Stmt.ends_of_evalAll {stmts : List Stmt} {bound : Nat} {last value : Value}
    {after : World Tally}
    (ran : Stmt.evalAll machine (machine.invoke bound) scope last stmts world =
      some (value, after)) :
    machine.Ends (fun invoke => Stmt.evalAll machine invoke scope last stmts) world value
      after := by
  refine ⟨bound, fun more le => ?_⟩
  have law := ((Lockstep.self machine).parallel ((Lockstep.self machine).invoke le) scope).stmts
    last stmts
  exact law.1.ofSelf ran

end

end Lengua
