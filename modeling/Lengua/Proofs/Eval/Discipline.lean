import Lengua.Proofs.Eval.Given
import Lengua.Proofs.Eval.Outcome
import Lengua.Proofs.Eval.Task

/-!
# Disciplines

A discipline says which tasks may be started in which worlds, what a world may become, and which
values are fine. If what a task starts may be started as well, and single steps keep to the
discipline, then whole evaluations do: a world becomes what it may, and the value is fine in what
it has become. Trees are gone through here once for all disciplines; each of them only has to say
why single steps keep to it.
-/

namespace Lengua

variable {Tally : Type} {machine : Machine Tally}

/-! ## What single steps keep to -/

/-- The target of a statement. -/
def Stmt.target? : Stmt → Option Ident
  | .declare _ name _ | .assign _ name _ => name
  | _ => none

namespace Task

/-- The line that a task itself can be at fault on: that of its node, or of the call. -/
def place? : Task → Option Int
  | .call _ _ line => some line
  | .program whole scope => (Task.program whole scope).line?
  | .stmt single scope => (Task.stmt single scope).line?
  | .expr single scope => (Task.expr single scope).line?
  | .block _ _ => none

/-- A node is visited on the line that it can be at fault on. -/
theorem place_of_line {task : Task} {line : Int} (onLine : task.line? = some line) :
    task.place? = some line := by
  cases task with
  | block | call => cases onLine
  | _ => exact onLine

/-- If a task is a call, it is given plain values as described. -/
def Given (fine : Value → Prop) : Task → Prop
  | .call callee args _ => fine callee ∧ ∀ arg ∈ args, fine arg ∧ arg.isSignal = false
  | _ => True

/-- What a call starts is no call. -/
theorem Starts.given {callee : Value} {args : List Value} {line : Int} {inner : Task}
    {world there : World Tally}
    (started : Starts machine (.call callee args line) world inner there) (fine : Value → Prop) :
    inner.Given fine := by
  cases started with
  | body => trivial

end Task

/-- What the evaluations on a machine keep to. -/
structure Discipline (machine : Machine Tally) where
  /-- Which tasks may be started in a world. -/
  may : Task → World Tally → Prop
  /-- What a world may become. -/
  becomes : World Tally → World Tally → Prop
  /-- Which values are fine in a forest. -/
  fine : Forest → Value → Prop
  /-- A world may stay as it is. -/
  refl : ∀ world, becomes world world
  /-- What a world has become may become more. -/
  trans : ∀ {world between after}, becomes world between → becomes between after →
    becomes world after
  /-- A value that is fine stays fine. -/
  mono : ∀ {world after value}, becomes world after → fine world.forest value →
    fine after.forest value
  /-- The node of a task is visited. -/
  visit : ∀ {task line world inside}, may task world → task.line? = some line →
    machine.Visits line world inside → becomes world inside
  /-- What a task starts may be started, in what the world has become and with fine values. -/
  starts : ∀ {task inner world there}, may task world →
    Task.Starts machine task world inner there → becomes world there →
    inner.Given (fine there.forest) → may inner there
  /-- The body of a procedure is entered. -/
  enter : ∀ {callee args line inner world there}, may (.call callee args line) world →
    Task.Starts machine (.call callee args line) world inner there → becomes world there
  /-- A call ends. -/
  leave : ∀ {world after}, becomes world after →
    becomes world { after with tally := machine.meter.leave after.tally }
  /-- A statement binds its target to a fine plain value. -/
  bind : ∀ {stmt id scope world later value}, may (.stmt stmt scope) world →
    stmt.target? = some id → becomes world later → fine later.forest value →
    value.isSignal = false →
    becomes later { later with forest := later.forest.set scope id.name value }
  /-- Null is fine. -/
  null : ∀ forest, fine forest .null
  /-- What a task may give on its own is fine. -/
  given : ∀ {task line world value}, may task world → task.place? = some line →
    value.GivenAt line → fine world.forest value
  /-- What a name is bound to is fine. -/
  bound : ∀ {id scope world value}, may (.expr (.ident id) scope) world →
    world.forest.get? scope id.name = some value → fine world.forest value
  /-- Functions of the host and of the language are fine. -/
  builtin : ∀ forest function, fine forest (.builtin function)
  /-- A procedure is fine. -/
  procedure : ∀ {token params body scope world}, may (.expr (.procedure token params body) scope)
    world → fine world.forest (.procedure (params.map Ident.name) body (some scope))
  /-- A fine plain value on its way out of a procedure is fine. -/
  returned : ∀ {forest value}, fine forest value → value.isSignal = false →
    fine forest (.returned value)
  /-- A fine value that has left a procedure is fine. -/
  unwrapped : ∀ {forest value}, fine forest value → fine forest value.unwrapped
  /-- What a function of the host answers is fine. -/
  answer : ∀ {name args line world}, may (.call (.builtin (.host name)) args line) world →
    fine world.forest (machine.host.answer (.host name) args line)

/-! ## What steps that are put together keep to -/

/-- If a step from a world has an outcome, the world becomes what it may, and the outcome is as
described. -/
def Run.Obeys {Outcome : Type} (law : Discipline machine) (post : Forest → Outcome → Prop)
    (run : Run Tally Outcome) (world : World Tally) : Prop :=
  ∀ outcome after, run world = some (outcome, after) →
    law.becomes world after ∧ post after.forest outcome

namespace Discipline

variable (law : Discipline machine)

/-- Fine plain values, or else a fine signal. -/
def fineAll (forest : Forest) : Except Value (List Value) → Prop
  | .error signal => law.fine forest signal
  | .ok values => ∀ value ∈ values, law.fine forest value ∧ value.isSignal = false

end Discipline

namespace Run.Obeys

variable {law : Discipline machine} {run : Run Tally Value}
  {rest : Run Tally (Except Value (List Value))} {world : World Tally}

/-- Yielding an outcome. -/
theorem done {Outcome : Type} {post : Forest → Outcome → Prop} {outcome : Outcome}
    (holds : post world.forest outcome) :
    (Run.done outcome : Run Tally Outcome).Obeys law post world := by
  rintro _ _ ⟨⟩
  exact ⟨law.refl world, holds⟩

/-- Going on unless there is a signal. -/
theorem unlessSignal {next : Value → Run Tally Value} (first : run.Obeys law law.fine world)
    (second : ∀ value between, run world = some (value, between) → value.isSignal = false →
      law.becomes world between → law.fine between.forest value →
      (next value).Obeys law law.fine between) :
    (run.unlessSignal next).Obeys law law.fine world := by
  intro outcome after ran
  obtain ⟨value, between, ranFirst, ending⟩ := Run.unlessSignal_eq_some_iff.mp ran
  obtain ⟨became, holds⟩ := first value between ranFirst
  rcases ending with ⟨-, rfl, rfl⟩ | ⟨plain, ranSecond⟩
  · exact ⟨became, holds⟩
  · obtain ⟨becameMore, holdsAfter⟩ :=
      second value between ranFirst plain became holds outcome after ranSecond
    exact ⟨law.trans became becameMore, holdsAfter⟩

/-- Going on unless the values ended in a signal. -/
theorem unlessStopped {next : List Value → Run Tally Value}
    (first : rest.Obeys law law.fineAll world)
    (second : ∀ values between, rest world = some (.ok values, between) →
      law.becomes world between →
      (∀ value ∈ values, law.fine between.forest value ∧ value.isSignal = false) →
      (next values).Obeys law law.fine between) :
    (rest.unlessStopped next).Obeys law law.fine world := by
  intro outcome after ran
  rcases Run.unlessStopped_eq_some_iff.mp ran with stopped | ⟨values, between, all, ranSecond⟩
  · exact first _ after stopped
  · obtain ⟨became, hold⟩ := first _ between all
    obtain ⟨becameMore, holdsAfter⟩ := second values between all became hold outcome after ranSecond
    exact ⟨law.trans became becameMore, holdsAfter⟩

/-- Putting a value before others. -/
theorem followedBy (first : run.Obeys law law.fine world)
    (second : ∀ value between, run world = some (value, between) → value.isSignal = false →
      law.becomes world between → rest.Obeys law law.fineAll between) :
    (run.followedBy rest).Obeys law law.fineAll world := by
  intro outcome after ran
  obtain ⟨value, between, ranFirst, ending⟩ := Run.followedBy_eq_some_iff.mp ran
  obtain ⟨became, holds⟩ := first value between ranFirst
  rcases ending with ⟨-, rfl, rfl⟩ | ⟨plain, others, ranSecond, rfl⟩
  · exact ⟨became, holds⟩
  · obtain ⟨becameMore, hold⟩ := second value between ranFirst plain became others after ranSecond
    refine ⟨law.trans became becameMore, ?_⟩
    cases others with
    | error signal => exact hold
    | ok values => exact List.forall_mem_cons.mpr ⟨⟨law.mono becameMore holds, plain⟩, hold⟩

/-- Visiting the node of a task that may be started. -/
theorem visit {task : Task} {line : Int} (may : law.may task world)
    (onLine : task.line? = some line)
    (inside : ∀ between, machine.Visits line world between → law.becomes world between →
      run.Obeys law law.fine between) :
    (machine.visit line run).Obeys law law.fine world := by
  intro outcome after ran
  rcases Machine.visit_eq_some_iff.mp ran with ⟨-, rfl, rfl⟩ | ⟨tally, passed, ranInside⟩
  · exact ⟨law.refl _, law.given may (Task.place_of_line onLine) (.error (by rintro _ ⟨⟩))⟩
  · have visits : machine.Visits line world { world with tally } := ⟨tally, passed, rfl⟩
    have became := law.visit may onLine visits
    obtain ⟨becameMore, holds⟩ := inside _ visits became outcome after ranInside
    exact ⟨law.trans became becameMore, holds⟩

end Run.Obeys

/-! ## What evaluations keep to -/

namespace Discipline

variable (law : Discipline machine) {bound : Nat} {world : World Tally}

/-- What a task may give on its own is fine in what the world has become. -/
theorem given_later {task : Task} {line : Int} {later : World Tally} {value : Value}
    (may : law.may task world) (placed : task.place? = some line)
    (became : law.becomes world later) (given : value.GivenAt line) :
    law.fine later.forest value :=
  law.mono became (law.given may placed given)

/-- What a name stands for is fine. -/
theorem resolve {id : Ident} {scope : ScopeId} (may : law.may (.expr (.ident id) scope) world) :
    law.fine world.forest (machine.resolve scope id world.forest) := by
  unfold Machine.resolve
  split
  · next value found => exact law.bound may found
  · split
    · exact law.builtin _ _
    · exact law.given may rfl (.error (by rintro _ ⟨⟩))

/-- Bodies of procedures keep to a discipline. -/
def Bodies (bound : Nat) : Prop :=
  ∀ body scope world, law.may (.block body scope) world →
    (machine.invoke bound body scope).Obeys law law.fine world

/-- Arguments that may be evaluated, each after those before it. -/
def MayArgs (bound : Nat) (scope : ScopeId) (exprs : List Expr) (world : World Tally) : Prop :=
  ∀ before expr rest values between, exprs = before ++ expr :: rest →
    Expr.evalAll machine (machine.invoke bound) scope before world = some (.ok values, between) →
    law.becomes world between → law.may (.expr expr scope) between

/-- Statements that may be evaluated, each after those before it. -/
def MayStmts (bound : Nat) (scope : ScopeId) (last : Value) (stmts : List Stmt)
    (world : World Tally) : Prop :=
  ∀ before stmt rest value between, stmts = before ++ stmt :: rest →
    Stmt.evalAll machine (machine.invoke bound) scope last before world = some (value, between) →
    value.isSignal = false → law.becomes world between → law.may (.stmt stmt scope) between

variable {law}

/-- The arguments after the first. -/
theorem MayArgs.tail {scope : ScopeId} {head : Expr} {rest : List Expr}
    (may : law.MayArgs bound scope (head :: rest) world) {value : Value} {between : World Tally}
    (ran : head.eval machine (machine.invoke bound) scope world = some (value, between))
    (plain : value.isSignal = false) (became : law.becomes world between) :
    law.MayArgs bound scope rest between := by
  intro before expr later values last split others becameMore
  refine may (head :: before) expr later (value :: values) last (congrArg _ split) ?_
    (law.trans became becameMore)
  simp [Expr.evalAll, Run.followedBy, ran, plain, others]

/-- The statements after the first. -/
theorem MayStmts.tail {scope : ScopeId} {last : Value} {head : Stmt} {rest : List Stmt}
    (may : law.MayStmts bound scope last (head :: rest) world) {value : Value}
    {between : World Tally}
    (ran : head.eval machine (machine.invoke bound) scope world = some (value, between))
    (plain : value.isSignal = false) (became : law.becomes world between) :
    law.MayStmts bound scope value rest between := by
  intro before stmt later found ended split others plainFound becameMore
  refine may (head :: before) stmt later found ended (congrArg _ split) ?_ plainFound
    (law.trans became becameMore)
  rw [Stmt.evalAll, Run.unlessSignal_of_plain ran plain, others]

/-- Calls keep to a discipline. -/
theorem apply (bodies : law.Bodies bound) {callee : Value} {args : List Value} {line : Int}
    (may : law.may (.call callee args line) world) :
    (machine.apply (machine.invoke bound) callee args line).Obeys law law.fine world := by
  have failed {fault : Fault} (told : ∀ words, fault ≠ .reported words) :
      (Run.done (.error fault line) : Run Tally Value).Obeys law law.fine world :=
    .done (law.given may rfl (.error told))
  cases callee with
  | procedure params body outer =>
    simp only [Machine.apply]
    split
    · next arity =>
      intro outcome after ran
      rcases Machine.enter_eq_some_iff.mp ran with
        ⟨-, rfl, rfl⟩ | ⟨tally, value, inside, entered, ranBody, rfl, rfl⟩
      · exact ⟨law.refl _, law.given may rfl (.error (by rintro _ ⟨⟩))⟩
      · have started : Task.Starts machine (.call (.procedure params body outer) args line) world
            _ _ := .body arity entered
        have entering := law.enter may started
        have mayBody := law.starts may started entering (started.given _)
        obtain ⟨became, holds⟩ := bodies body _ _ mayBody value inside ranBody
        exact ⟨law.leave (law.trans entering became), law.unwrapped holds⟩
    · exact failed (by rintro _ ⟨⟩)
  | builtin function =>
    cases function with
    | length => exact .done (law.given may rfl (Value.length_givenAt args line))
    | host name => exact .done (law.answer may)
  | _ => exact failed (by rintro _ ⟨⟩)

mutual

/-- Expressions keep to a discipline. -/
theorem expr (bodies : law.Bodies bound) {scope : ScopeId} {world : World Tally} :
    ∀ expr : Expr, law.may (.expr expr scope) world →
      (expr.eval machine (machine.invoke bound) scope).Obeys law law.fine world
  | .absent, _ => .done (law.null _)
  | .ident id, may => .visit may rfl fun inside visits became => by
    obtain ⟨tally, -, rfl⟩ := visits
    rintro _ _ ⟨⟩
    exact ⟨law.refl _, law.mono became (law.resolve may)⟩
  | .int _ _, may => .visit may rfl fun _ _ became =>
    .done (law.given_later may rfl became (.int _))
  | .bool _ _, may => .visit may rfl fun _ _ became =>
    .done (law.given_later may rfl became (.bool _))
  | .str _ _, may => .visit may rfl fun _ _ became =>
    .done (law.given_later may rfl became (.str _))
  | .null _, may => .visit may rfl fun _ _ _ => .done (law.null _)
  | .procedure _ _ _, may => .visit may rfl fun _ _ became =>
    .done (law.mono became (law.procedure may))
  | .unary token sign operand, may => .visit may rfl fun _ visits became => by
    have first := expr bodies operand (law.starts may (.first rfl visits) became trivial)
    refine first.unlessSignal fun value between _ _ becameFirst _ => ?_
    exact .done (law.given_later may rfl (law.trans became becameFirst)
      (value.unary_givenAt sign token.line))
  | .binary token sign left right, may => .visit may rfl fun _ visits became => by
    have first := expr bodies left (law.starts may (.first rfl visits) became trivial)
    refine first.unlessSignal fun value between ran plain becameFirst _ => ?_
    have soFar := law.trans became becameFirst
    have second := expr bodies right (law.starts may (.right visits (.ofRun ran) plain) soFar
      trivial)
    refine second.unlessSignal fun following last _ _ becameSecond _ => ?_
    exact .done (law.given_later may rfl (law.trans soFar becameSecond)
      (Value.binary_givenAt sign value following token.line))
  | .choice token test yes no, may => .visit may rfl fun _ visits became => by
    have first := expr bodies test (law.starts may (.first rfl visits) became trivial)
    refine first.unlessSignal fun value between ran plain becameFirst _ => ?_
    have taken := law.starts may (.branch visits (.ofRun ran) plain)
      (law.trans became becameFirst) trivial
    by_cases truthy : value.isTruthy = true
    · rw [if_pos truthy] at taken ⊢
      exact block bodies yes taken
    · rw [if_neg truthy] at taken ⊢
      exact block bodies no taken
  | .call token callee args, may => .visit may rfl fun _ visits became => by
    have first := expr bodies callee (law.starts may (.first rfl visits) became trivial)
    refine first.unlessSignal fun function between ran plain becameFirst fineCallee => ?_
    have soFar := law.trans became becameFirst
    have arguments : law.MayArgs bound scope args between := by
      rintro before arg rest values last rfl others becameArgs
      exact law.starts may
        (.argument before rest visits (.ofRun ran) plain (Expr.ends_of_evalAll others))
        (law.trans soFar becameArgs) trivial
    have all := exprs bodies args arguments
    refine all.unlessStopped fun values last ranArgs becameArgs fineArgs => ?_
    exact apply bodies (law.starts may
      (.application visits (.ofRun ran) plain (Expr.ends_of_evalAll ranArgs))
      (law.trans soFar becameArgs) ⟨law.mono becameArgs fineCallee, fineArgs⟩)

/-- Lists of expressions keep to a discipline. -/
theorem exprs (bodies : law.Bodies bound) {scope : ScopeId} {world : World Tally} :
    ∀ exprs : List Expr, law.MayArgs bound scope exprs world →
      (Expr.evalAll machine (machine.invoke bound) scope exprs).Obeys law law.fineAll world
  | [], _ => .done (List.forall_mem_nil _)
  | head :: rest, may => by
    have first := expr bodies head (may [] head rest [] world rfl rfl (law.refl _))
    refine first.followedBy fun value between ran plain became => ?_
    exact exprs bodies rest (may.tail ran plain became)

/-- Statements keep to a discipline. -/
theorem stmt (bodies : law.Bodies bound) {scope : ScopeId} {world : World Tally} :
    ∀ stmt : Stmt, law.may (.stmt stmt scope) world →
      (stmt.eval machine (machine.invoke bound) scope).Obeys law law.fine world
  | .absent, _ => .done (law.null _)
  | .declare _ name value, may | .assign _ name value, may =>
    .visit may rfl fun _ visits became => by
      have first := expr bodies value (law.starts may (.value rfl visits) became trivial)
      refine first.unlessSignal fun result between _ plain becameFirst holds => ?_
      cases name with
      | none => exact .done holds
      | some id =>
        have binds := law.bind may rfl (law.trans became becameFirst) holds plain
        rintro _ _ ⟨⟩
        exact ⟨binds, law.mono binds holds⟩
  | .giveBack _ value, may => .visit may rfl fun _ visits became => by
    have first := expr bodies value (law.starts may (.value rfl visits) became trivial)
    refine first.unlessSignal fun result between _ plain _ holds => ?_
    exact .done (law.returned holds plain)
  | .expr _ value, may => .visit may rfl fun _ visits became =>
    expr bodies value (law.starts may (.value rfl visits) became trivial)
  | .block _ inner, may => .visit may rfl fun inside visits became => by
    refine stmts bodies rfl (law.null _) inner ?_
    rintro before stmt rest value between rfl others plain becameMore
    exact law.starts may (.nested before rest visits (Stmt.ends_of_evalAll others) plain)
      (law.trans became becameMore) trivial

/-- Lists of statements keep to a discipline. -/
theorem stmts (bodies : law.Bodies bound) {scope : ScopeId} {world : World Tally} {last : Value}
    (plain : last.isSignal = false) (holds : law.fine world.forest last) :
    ∀ stmts : List Stmt, law.MayStmts bound scope last stmts world →
      (Stmt.evalAll machine (machine.invoke bound) scope last stmts).Obeys law law.fine world
  | [], _ => .done holds
  | head :: rest, may => by
    have first := stmt bodies head (may [] head rest last world rfl rfl plain (law.refl _))
    refine first.unlessSignal fun value between ran plainValue became holdsValue => ?_
    exact stmts bodies plainValue holdsValue rest (may.tail ran plainValue became)

/-- Blocks keep to a discipline. -/
theorem block (bodies : law.Bodies bound) {scope : ScopeId} {world : World Tally} :
    ∀ block : Block, law.may (.block block scope) world →
      (block.eval machine (machine.invoke bound) scope).Obeys law law.fine world
  | .absent, _ => .done (law.null _)
  | .braces _ inner, may => by
    refine stmts bodies rfl (law.null _) inner ?_
    rintro before stmt rest value between rfl others plain became
    exact law.starts may (.inner before rest (Stmt.ends_of_evalAll others) plain) became trivial

end

/-- Bodies keep to a discipline, however deep calls may nest. -/
theorem invoke (law : Discipline machine) (bound : Nat) : law.Bodies bound := by
  induction bound with
  | zero =>
    intro _ _ _ _ _ _ ran
    cases ran
  | succ bound ih => exact fun body _ _ => block ih body

/-- A program keeps to a discipline, and its value is what is left of a fine one outside of all
procedures. -/
theorem program (law : Discipline machine) {whole : Program} {scope : ScopeId}
    (may : law.may (.program whole scope) world) {value : Value} {after : World Tally}
    (ran : whole.eval machine (machine.invoke bound) scope world = some (value, after)) :
    law.becomes world after ∧
      ∃ before, law.fine after.forest before ∧ value = before.unwrapped := by
  rcases Machine.visit_eq_some_iff.mp ran with ⟨-, rfl, rfl⟩ | ⟨tally, passed, ranInside⟩
  · exact ⟨law.refl _, _, law.given may rfl (.error (by rintro _ ⟨⟩)), rfl⟩
  · have visits : machine.Visits whole.line world { world with tally } := ⟨tally, passed, rfl⟩
    have became := law.visit may rfl visits
    have inside : law.MayStmts bound scope .null whole.stmts { world with tally } := by
      intro before stmt rest _ _ split others plain becameMore
      obtain rfl : whole = ⟨before ++ stmt :: rest⟩ := congrArg Program.mk split
      exact law.starts may (.outermost before rest visits (Stmt.ends_of_evalAll others) plain)
        (law.trans became becameMore) trivial
    obtain ⟨result, ranStmts, rfl⟩ := Run.unwrapped_eq_some_iff.mp ranInside
    obtain ⟨becameMore, holds⟩ :=
      stmts (law.invoke bound) rfl (law.null _) whole.stmts inside result after ranStmts
    exact ⟨law.trans became becameMore, result, holds, rfl⟩

/-- Tasks keep to a discipline. -/
theorem task (law : Discipline machine) {task : Task} (may : law.may task world) {value : Value}
    {after : World Tally}
    (ran : task.run machine (machine.invoke bound) world = some (value, after)) :
    law.becomes world after ∧ law.fine after.forest value := by
  have bodies := law.invoke bound
  cases task with
  | program whole scope =>
    obtain ⟨became, before, holds, rfl⟩ := law.program may ran
    exact ⟨became, law.unwrapped holds⟩
  | stmt single scope => exact stmt bodies single may value after ran
  | expr single scope => exact expr bodies single may value after ran
  | block whole scope => exact block bodies whole may value after ran
  | call callee args line => exact apply bodies may value after ran

end Discipline

end Lengua
