import Lengua.Proofs.Eval.Reached

/-!
# Signals

A signal ends every task it occurs in. A task that starts another which ends in a signal yields
that very signal, in the same world: it starts nothing else and binds nothing. Only a program and
a call take the value out of a signal that carries one; an error passes them too, and so it reaches
the top from any depth.
-/

namespace Lengua

variable {Tally : Type} {machine : Machine Tally}

namespace Task

/-- Programs and calls: a value on its way out of a procedure goes no further. -/
def isFrame : Task → Bool
  | .program _ _ | .call _ _ _ => true
  | _ => false

/-- What becomes of a signal in the task it ends. -/
def passed (task : Task) (signal : Value) : Value :=
  if task.isFrame then signal.unwrapped else signal

/-- The world in which a task ends that a signal has ended: the meter is told of the end of a
call. -/
def left (machine : Machine Tally) : Task → World Tally → World Tally
  | .call _ _ _, world => { world with tally := machine.meter.leave world.tally }
  | _, world => world

end Task

/-- A signal ends what waits for a plain value. -/
theorem Run.unlessSignal_of_signal {run : Run Tally Value} {world last : World Tally}
    {signal : Value} (ran : run world = some (signal, last)) (isSignal : signal.isSignal = true)
    (next : Value → Run Tally Value) : run.unlessSignal next world = some (signal, last) := by
  simp [Run.unlessSignal, ran, isSignal]

section

variable {invoke : Invoke Tally} {scope : ScopeId} {world between last : World Tally}
  {signal : Value} (isSignal : signal.isSignal = true)

include isSignal

/-- A signal among arguments ends them. -/
theorem Expr.evalAll_of_signal {before rest : List Expr} {arg : Expr} {values : List Value}
    (others : Expr.evalAll machine invoke scope before world = some (.ok values, between))
    (ran : arg.eval machine invoke scope between = some (signal, last)) :
    Expr.evalAll machine invoke scope (before ++ arg :: rest) world =
      some (.error signal, last) := by
  rw [Expr.evalAll_append_of_ok others, Expr.evalAll]
  simp [Run.followedBy, ran, isSignal, Except.map]

/-- A signal among statements ends them. -/
theorem Stmt.evalAll_of_signal {before rest : List Stmt} {stmt : Stmt} {value start : Value}
    (others : Stmt.evalAll machine invoke scope start before world = some (value, between))
    (plain : value.isSignal = false)
    (ran : stmt.eval machine invoke scope between = some (signal, last)) :
    Stmt.evalAll machine invoke scope start (before ++ stmt :: rest) world =
      some (signal, last) := by
  rw [Stmt.evalAll_append_of_plain others plain, Stmt.evalAll]
  exact Run.unlessSignal_of_signal ran isSignal _

end

/-- A signal ends the task in which it occurs, and nothing else happens there. -/
theorem Task.Starts.yields {outer inner : Task} {around world last : World Tally} {signal : Value}
    (starts : Task.Starts machine outer around inner world)
    (ends : inner.Yields machine world signal last) (isSignal : signal.isSignal = true) :
    outer.Yields machine around (outer.passed signal) (outer.left machine last) := by
  -- What was evaluated before has ended as well, so with enough nested calls followed both outcomes
  -- are there, and the run of the outer task comes to the signal.
  cases starts with
  | first begins visits =>
    refine ends.imp fun invoke ran => ?_
    obtain ⟨next, same⟩ := Expr.eval_of_first begins
    simp only [Task.run] at ran ⊢
    rw [same, visits.visit_eq]
    exact Run.unlessSignal_of_signal ran isSignal next
  | right visits first plain =>
    refine first.imp₂ ends fun invoke ranFirst ran => ?_
    simp only [Task.run, Expr.eval] at ranFirst ran ⊢
    rw [visits.visit_eq, Run.unlessSignal_of_plain ranFirst plain]
    exact Run.unlessSignal_of_signal ran isSignal _
  | branch visits tested plain =>
    refine tested.imp₂ ends fun invoke ranTest ran => ?_
    simp only [Task.run, Expr.eval] at ranTest ran ⊢
    rw [visits.visit_eq, Run.unlessSignal_of_plain ranTest plain]
    split at ran
    · next holds => rw [if_pos holds]; exact ran
    · next fails => rw [if_neg fails]; exact ran
  | @argument before rest token callee arg scope _ _ _ _ _ _ visits called plain others =>
    have stopped : machine.Ends
        (fun invoke => Expr.evalAll machine invoke scope (before ++ arg :: rest)) _
        (.error signal) last :=
      others.imp₂ ends fun invoke ranOthers ran => Expr.evalAll_of_signal isSignal ranOthers ran
    refine called.imp₂ stopped fun invoke ranCallee ran => ?_
    simp only [Task.run, Expr.eval] at ranCallee ⊢
    rw [visits.visit_eq, Run.unlessSignal_of_plain ranCallee plain]
    exact Run.unlessStopped_eq_some_iff.mpr (.inl ran)
  | @application token callee args scope _ _ _ _ function _ visits called plain others =>
    have made : machine.Ends (fun invoke => (Expr.evalAll machine invoke scope args).unlessStopped
        fun values => machine.apply invoke function values token.line) _ signal last :=
      others.imp₂ ends fun invoke ranArgs ran => (Run.unlessStopped_of_ok ranArgs _).trans ran
    refine called.imp₂ made fun invoke ranCallee ran => ?_
    simp only [Task.run, Expr.eval] at ranCallee ⊢
    rw [visits.visit_eq, Run.unlessSignal_of_plain ranCallee plain]
    exact ran
  | @value stmt part line scope _ _ holds visits =>
    refine ends.imp fun invoke ran => ?_
    simp only [Task.run] at ran ⊢
    cases stmt with
    | absent | block => cases holds
    | expr =>
      cases holds
      rw [Stmt.eval, visits.visit_eq]
      exact ran
    | declare | assign | giveBack =>
      cases holds
      rw [Stmt.eval, visits.visit_eq]
      exact Run.unlessSignal_of_signal ran isSignal _
  | nested before rest visits others plain =>
    refine others.imp₂ ends fun invoke ranOthers ran => ?_
    simp only [Task.run, Stmt.eval] at ran ⊢
    rw [visits.visit_eq]
    exact Stmt.evalAll_of_signal isSignal ranOthers plain ran
  | inner before rest others plain =>
    refine others.imp₂ ends fun invoke ranOthers ran => ?_
    simp only [Task.run, Block.eval] at ran ⊢
    exact Stmt.evalAll_of_signal isSignal ranOthers plain ran
  | outermost before rest visits others plain =>
    refine others.imp₂ ends fun invoke ranOthers ran => ?_
    simp only [Task.run, Program.eval] at ran ⊢
    rw [visits.visit_eq]
    exact Run.unwrapped_eq_some_iff.mpr
      ⟨signal, Stmt.evalAll_of_signal isSignal ranOthers plain ran, rfl⟩
  | body arity enters =>
    -- The body is followed with one nested call less than the call.
    obtain ⟨enough, ended⟩ := ends
    refine ⟨enough + 1, fun bound le => ?_⟩
    obtain ⟨fewer, rfl⟩ : ∃ fewer, bound = fewer + 1 := ⟨bound - 1, by omega⟩
    have ran := ended fewer (Nat.le_of_succ_le_succ le)
    simp only [Task.run, Machine.apply, if_pos arity] at ran ⊢
    exact Machine.enter_eq_some_iff.mpr (.inr ⟨_, signal, last, enters, ran, rfl, rfl⟩)

namespace Task

/-- A task around another, with no program and no call in between. -/
def Encloses (machine : Machine Tally) : Task → World Tally → Task → World Tally → Prop :=
  Reaches machine (·.isFrame = false)

/-- The program or the call in which a task lies, the innermost one. -/
def Frames (machine : Machine Tally) (frame : Task) (outside : World Tally) (task : Task)
    (world : World Tally) : Prop :=
  frame.isFrame = true ∧ ∃ outer around, Starts machine frame outside outer around ∧
    outer.Encloses machine around task world

variable {task outer : Task} {around world last : World Tally} {signal : Value}

/-- A signal ends all tasks around it up to the innermost program or call, and nothing else happens
there. -/
theorem Encloses.yields (encloses : outer.Encloses machine around task world)
    (ends : task.Yields machine world signal last) (isSignal : signal.isSignal = true) :
    outer.Yields machine around signal last := by
  induction encloses with
  | here => exact ends
  | @step outer next _ _ _ _ notFrame starts further ih =>
    have ended := starts.yields (ih ends) isSignal
    have same : outer.passed signal = signal := by rw [passed, notFrame]; rfl
    have kept : outer.left machine last = last := by
      cases outer with
      | call => cases notFrame
      | _ => rfl
    rwa [same, kept] at ended

/-- The innermost program or call around a signal yields what it carries. -/
theorem Frames.yields {frame : Task} {outside : World Tally}
    (frames : frame.Frames machine outside task world)
    (ends : task.Yields machine world signal last) (isSignal : signal.isSignal = true) :
    frame.Yields machine outside signal.unwrapped (frame.left machine last) := by
  obtain ⟨isFrame, outer, around, starts, encloses⟩ := frames
  have ended := starts.yields (encloses.yields ends isSignal) isSignal
  rwa [passed, if_pos isFrame] at ended

/-- An error ends all tasks around it. Nothing else happens there, but that the calls end, which a
view of the tally may ignore. -/
theorem Reaches.yields_error {through : Task → Prop} {fault : Fault} {line : Int}
    (reaches : Reaches machine through outer around task world) {View : Type}
    (view : Tally → View) (ignores : ∀ tally, view (machine.meter.leave tally) = view tally)
    (ends : task.Yields machine world (.error fault line) last) :
    ∃ tally, outer.Yields machine around (.error fault line) ⟨last.forest, tally⟩ ∧
      view tally = view last.tally := by
  induction reaches with
  | here => exact ⟨last.tally, ends, rfl⟩
  | @step outer _ _ _ _ _ _ starts further ih =>
    obtain ⟨tally, ended, same⟩ := ih ends
    have ended := starts.yields ended rfl
    rw [show outer.passed (.error fault line) = .error fault line from ite_self _] at ended
    cases outer with
    | call => exact ⟨machine.meter.leave tally, ended, (ignores tally).trans same⟩
    | _ => exact ⟨tally, ended, same⟩

/-- A task that another comes to is enclosed by that, or lies in an innermost program or call. -/
theorem Reaches.encloses_or_frames
    (reaches : Reaches machine (fun _ => True) outer around task world) :
    outer.Encloses machine around task world ∨ ∃ frame outside,
      Reaches machine (fun _ => True) outer around frame outside ∧
        frame.Frames machine outside task world := by
  induction reaches with
  | here => exact .inl .here
  | @step outer next _ around between _ _ starts further ih =>
    rcases ih with encloses | ⟨frame, outside, reached, frames⟩
    · cases isFrame : outer.isFrame with
      | false => exact .inl (.step isFrame starts encloses)
      | true => exact .inr ⟨outer, around, .here, isFrame, next, between, starts, encloses⟩
    · exact .inr ⟨frame, outside, .step trivial starts reached, frames⟩

end Task

/-- In every evaluation of a program that ends, a signal is passed on as it is, from whatever task
it comes, and every visit and every call is that of a task. An error is the value of the program,
with the scopes as they are at that moment, and no further node is visited and no further call
entered. Any signal is what all tasks around yield, in the same world, up to the innermost program
or call, and that yields what the signal carries, with the same scopes and no further visits. -/
theorem Limits.history_signals {limits : Limits} {host : Host} {fallback : Nat} {program : Program}
    {scope : ScopeId} {forest after : Forest} {value : Value} {ledger : Ledger Budget}
    (ended : limits.history host fallback (.program program) scope forest =
      some (value, after, ledger)) :
    let machine := Machine.recorded ⟨limits.meter, host⟩
    let start : World (Budget × Ledger Budget) := ⟨forest, limits.budget, .empty⟩
    let whole : Task := .program program scope
    ledger.Reached machine whole start ∧
    ∀ task world signal last, Task.Reaches machine (fun _ => True) whole start task world →
      task.Yields machine world signal last → signal.isSignal = true →
      (signal.isError = true → value = signal ∧ after = last.forest ∧
        ledger.visits = last.tally.2.visits ∧ ledger.calls = last.tally.2.calls) ∧
      (∀ (outer : Task) around, outer.Encloses machine around task world →
        outer.Yields machine around signal last) ∧
      (∀ (frame : Task) outside, frame.Frames machine outside task world →
        ∃ tally, frame.Yields machine outside signal.unwrapped ⟨last.forest, tally⟩ ∧
          tally.2.visits = last.tally.2.visits ∧ tally.2.calls = last.tally.2.calls) ∧
      (task = whole ∨ ∃ frame outside,
        Task.Reaches machine (fun _ => True) whole start frame outside ∧
          frame.Frames machine outside task world) := by
  intro machine start whole
  obtain ⟨budget, ran⟩ := (history_eq_some_iff ..).mp ended
  have ran : whole.run machine (machine.invoke (limits.nesting fallback)) start =
    some (value, ⟨after, budget, ledger⟩) := ran
  refine ⟨Task.ledger_reached ran rfl, fun task world signal last reaches ends isSignal => ?_⟩
  have yields : whole.Yields machine start value ⟨after, budget, ledger⟩ := .ofRun ran
  refine ⟨fun isError => ?_, fun outer around encloses => encloses.yields ends isSignal,
    fun frame outside frames => ?_, ?_⟩
  · cases signal with
    | error fault line =>
      obtain ⟨tally, yieldsError, same⟩ := reaches.yields_error
        (fun tally => (tally.2.visits, tally.2.calls)) (fun _ => rfl) ends
      obtain ⟨sameValue, sameWorld⟩ := yields.unique yieldsError
      cases sameWorld
      obtain ⟨visits, calls⟩ := Prod.mk.inj same
      exact ⟨sameValue, rfl, visits, calls⟩
    | _ => cases isError
  · have yieldsFrame := frames.yields ends isSignal
    cases frame <;> exact ⟨_, yieldsFrame, rfl, rfl⟩
  · refine reaches.encloses_or_frames.imp_left fun encloses => ?_
    cases encloses with
    | here => rfl
    | step notFrame _ _ => cases notFrame

/-- An operand in a procedure ends in a signal, once in an error and once in a value that leaves the
procedure from inside a branch. The error is the value of the program, and the call has the other
value. -/
theorem Limits.history_signals_operand :
    let token : Token := ⟨.illegal, [], 1⟩
    let failure := Expr.call token (.int token 5) []
    let giveBack := Stmt.giveBack token (.int token 0)
    let choice := Expr.choice token (.bool token true) (.braces token [giveBack]) .absent
    let sum (operand : Expr) := Expr.binary token (utf8 "+") (.int token 2) operand
    let body (operand : Expr) := Block.braces token [.expr token (sum operand)]
    let call (operand : Expr) := Expr.call token (.procedure token [] (body operand)) []
    let program (operand : Expr) : Program := ⟨[.expr token (call operand)]⟩
    let machine := Machine.recorded ⟨(Limits.mk 0 0).meter, .empty⟩
    let frame (operand : Expr) := Task.call (.procedure [] (body operand) (some 0)) [] 1
    (∃ after ledger, (Limits.mk 0 0).history .empty 1 (.program (program failure)) 0 .single =
      some (.error (.notCallable .integer) 1, after, ledger)) ∧
    ∃ scope outside world last tally,
      (Task.stmt giveBack scope).Yields machine world (.returned (.int 0)) last ∧
      (frame choice).Frames machine outside (.stmt giveBack scope) world ∧
      (frame choice).Yields machine outside (.int 0) ⟨last.forest, tally⟩ ∧
      tally.2.visits = last.tally.2.visits := by
  intro token failure giveBack choice sum body call program machine frame
  let start : World (Budget × Ledger Budget) := ⟨.single, (Limits.mk 0 0).budget, .empty⟩
  have visits (world : World (Budget × Ledger Budget)) : ∃ inside, machine.Visits 1 world inside :=
    ⟨_, _, rfl, rfl⟩
  -- From the program to the call, then from the call to the operand.
  have reachesFrame (operand : Expr) : ∃ outside, Task.Reaches machine (fun _ => True)
      (.program (program operand) 0) start (frame operand) outside := by
    obtain ⟨atStmt, ofProgram⟩ := visits start
    obtain ⟨atCall, ofStmt⟩ := visits atStmt
    obtain ⟨atCallee, ofCall⟩ := visits atCall
    have made : ∃ outside, (Task.expr (.procedure token [] (body operand)) 0).Yields machine
        atCallee (.procedure [] (body operand) (some 0)) outside := ⟨_, 0, fun _ _ => rfl⟩
    obtain ⟨outside, made⟩ := made
    have toStmt : Task.Starts machine (.program (program operand) 0) start
        (.stmt (.expr token (call operand)) 0) atStmt :=
      .outermost [] [] ofProgram ⟨0, fun _ _ => rfl⟩ rfl
    have toCall : Task.Starts machine (.stmt (.expr token (call operand)) 0) atStmt
        (.expr (call operand) 0) atCall := .value rfl ofStmt
    have toFrame : Task.Starts machine (.expr (call operand) 0) atCall (frame operand) outside :=
      .application ofCall made rfl ⟨0, fun _ _ => rfl⟩
    exact ⟨outside, .step trivial toStmt (.step trivial toCall (.step trivial toFrame .here))⟩
  have framesOperand (operand : Expr) (outside : World (Budget × Ledger Budget)) :
      ∃ scope world, (frame operand).Frames machine outside (.expr operand scope) world := by
    let scope := outside.forest.scopes.size
    have toBody : ∃ around, Task.Starts machine (frame operand) outside
        (.block (body operand) scope) around := ⟨_, .body rfl rfl⟩
    obtain ⟨around, toBody⟩ := toBody
    obtain ⟨atSum, ofStmt⟩ := visits around
    obtain ⟨atLeft, ofSum⟩ := visits atSum
    have two : ∃ world, (Task.expr (.int token 2) scope).Yields machine atLeft (.int 2) world :=
      ⟨_, 0, fun _ _ => rfl⟩
    obtain ⟨world, two⟩ := two
    have toStmt : Task.Starts machine (.block (body operand) scope) around
        (.stmt (.expr token (sum operand)) scope) around := .inner [] [] ⟨0, fun _ _ => rfl⟩ rfl
    have toSum : Task.Starts machine (.stmt (.expr token (sum operand)) scope) around
        (.expr (sum operand) scope) atSum := .value rfl ofStmt
    have toOperand : Task.Starts machine (.expr (sum operand) scope) atSum
        (.expr operand scope) world := .right ofSum two rfl
    exact ⟨scope, world, rfl, _, around, toBody,
      .step rfl toStmt (.step rfl toSum (.step rfl toOperand .here))⟩
  have reaches {operand : Expr} {outside world : World (Budget × Ledger Budget)} {task : Task}
      (reached : Task.Reaches machine (fun _ => True) (.program (program operand) 0) start
        (frame operand) outside) (frames : (frame operand).Frames machine outside task world) :
      Task.Reaches machine (fun _ => True) (.program (program operand) 0) start task world := by
    obtain ⟨-, outer, around, starts, encloses⟩ := frames
    exact reached.trans (.step trivial starts (encloses.weaken fun _ _ => trivial))
  constructor
  · obtain ⟨⟨value, after, ledger⟩, ended⟩ := Option.isSome_iff_exists.mp
      (show ((Limits.mk 0 0).history .empty 1 (.program (program failure)) 0 .single).isSome by
        decide +kernel)
    obtain ⟨outside, reached⟩ := reachesFrame failure
    obtain ⟨scope, world, frames⟩ := framesOperand failure outside
    obtain ⟨atCallee, ofCall⟩ := visits world
    have five : ∃ last, (Task.expr (.int token 5) scope).Yields machine atCallee (.int 5) last :=
      ⟨_, 0, fun _ _ => rfl⟩
    obtain ⟨last, five⟩ := five
    have toFailure : Task.Starts machine (.expr failure scope) world (.call (.int 5) [] 1) last :=
      .application ofCall five rfl ⟨0, fun _ _ => rfl⟩
    have yields : (Task.call (.int 5) [] 1).Yields machine last (.error (.notCallable .integer) 1)
        last := ⟨0, fun _ _ => rfl⟩
    obtain ⟨passed, -⟩ := (history_signals ended).2 _ _ _ _
      ((reaches reached frames).trans (.step trivial toFailure .here)) yields rfl
    obtain ⟨rfl, -⟩ := passed rfl
    exact ⟨after, ledger, ended⟩
  · obtain ⟨⟨value, after, ledger⟩, ended⟩ := Option.isSome_iff_exists.mp
      (show ((Limits.mk 0 0).history .empty 1 (.program (program choice)) 0 .single).isSome by
        decide +kernel)
    obtain ⟨outside, reached⟩ := reachesFrame choice
    obtain ⟨scope, world, isFrame, outer, around, starts, encloses⟩ := framesOperand choice outside
    obtain ⟨atTest, ofChoice⟩ := visits world
    have yes : ∃ atBranch, (Task.expr (.bool token true) scope).Yields machine atTest (.bool true)
        atBranch := ⟨_, 0, fun _ _ => rfl⟩
    obtain ⟨atBranch, yes⟩ := yes
    have toBranch : Task.Starts machine (.expr choice scope) world
        (.block (.braces token [giveBack]) scope) atBranch := .branch ofChoice yes rfl
    have toGiveBack : Task.Starts machine (.block (.braces token [giveBack]) scope) atBranch
        (.stmt giveBack scope) atBranch := .inner [] [] ⟨0, fun _ _ => rfl⟩ rfl
    have frames : (frame choice).Frames machine outside (.stmt giveBack scope) atBranch :=
      ⟨isFrame, outer, around, starts,
        encloses.trans (.step rfl toBranch (.step rfl toGiveBack .here))⟩
    have yields : ∃ last, (Task.stmt giveBack scope).Yields machine atBranch (.returned (.int 0))
        last := ⟨_, 0, fun _ _ => rfl⟩
    obtain ⟨last, yields⟩ := yields
    obtain ⟨-, -, carried, -⟩ :=
      (history_signals ended).2 _ _ _ _ (reaches reached frames) yields rfl
    obtain ⟨tally, ended, same, -⟩ := carried (frame choice) outside frames
    exact ⟨scope, outside, atBranch, last, tally, yields, frames, ended, same⟩

end Lengua
