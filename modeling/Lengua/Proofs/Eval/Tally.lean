import Lengua.Proofs.Eval.Outcome
import Lengua.Proofs.Eval.Parallel

/-!
# What an evaluation does to the tally

The tally changes only where the meter is told of something. So a relation between tallies that
a visit and a whole call respect holds between the tallies before and after any evaluation,
whatever that ends in and however deep calls nest.
-/

namespace Lengua

variable {Tally : Type} {related : Tally → Tally → Prop}

/-- A relation between the tallies before and after what the meter is told of. -/
structure Meter.Moves (meter : Meter Tally) (related : Tally → Tally → Prop) : Prop where
  /-- Nothing may happen. -/
  refl : ∀ tally, related tally tally
  /-- One thing may happen after another. -/
  trans : ∀ {before between after}, related before between → related between after →
    related before after
  /-- A visit. -/
  visit : ∀ {line forest before after}, meter.visit line forest before = some after →
    related before after
  /-- A call, with all that happens in it. -/
  call : ∀ {line before entered ended}, meter.enter line before = some entered →
    related entered ended → related before (meter.leave ended)

/-- A property of tallies that the meter never gives up. -/
structure Meter.Keeps (meter : Meter Tally) (holds : Tally → Prop) : Prop where
  /-- A visit keeps it. -/
  visit : ∀ {line forest before after}, meter.visit line forest before = some after →
    holds before → holds after
  /-- The start of a call keeps it. -/
  enter : ∀ {line before after}, meter.enter line before = some after → holds before → holds after
  /-- The end of a call keeps it. -/
  leave : ∀ {tally}, holds tally → holds (meter.leave tally)

/-- What the meter keeps holds after anything it held before. -/
theorem Meter.Keeps.moves {meter : Meter Tally} {holds : Tally → Prop} (keeps : meter.Keeps holds) :
    meter.Moves fun before after => holds before → holds after where
  refl _ := id
  trans first second := second ∘ first
  visit := keeps.visit
  call entered inside held := keeps.leave (inside (keeps.enter entered held))

/-- Without a bound on visits an evaluation leaves the budget as it found it. -/
theorem Limits.moves_budget {limits : Limits} (unlimited : limits.gas = 0) :
    limits.meter.Moves fun before after => after = before where
  refl _ := rfl
  trans first second := second.trans first
  visit passed := by
    rcases visit_eq_some_iff.mp passed with ⟨-, same⟩ | ⟨bounded, -⟩
    · exact same
    · exact absurd unlimited bounded
  call {line before entered ended} passed inside := by
    obtain ⟨-, rfl⟩ := enter_eq_some_iff.mp passed
    rw [inside]
    rfl

/-- If a step has an outcome, the tallies before and after it are related. -/
def Run.Moves {Outcome : Type} (related : Tally → Tally → Prop) (run : Run Tally Outcome) : Prop :=
  ∀ world outcome after, run world = some (outcome, after) → related world.tally after.tally

namespace Run.Moves

/-- Yielding an outcome. -/
theorem done {Outcome : Type} (refl : ∀ tally, related tally tally) (outcome : Outcome) :
    (Run.done outcome : Run Tally Outcome).Moves related := by
  rintro world _ _ ⟨⟩
  exact refl world.tally

/-- Yielding a value that depends on the scopes. -/
theorem read (refl : ∀ tally, related tally tally) (value : Forest → Value) :
    (Run.read value : Run Tally Value).Moves related := by
  rintro world _ _ ⟨⟩
  exact refl world.tally

/-- Binding a name. -/
theorem bind (refl : ∀ tally, related tally tally) (scope : ScopeId) (name : Text)
    (value : Value) : (Run.bind scope name value : Run Tally Value).Moves related := by
  rintro world _ _ ⟨⟩
  exact refl world.tally

/-- Leaving a procedure. -/
theorem unwrapped {run : Run Tally Value} (inside : run.Moves related) :
    run.unwrapped.Moves related := by
  intro world outcome after ran
  obtain ⟨value, ranInside, -⟩ := Run.unwrapped_eq_some_iff.mp ran
  exact inside world value after ranInside

section

variable {meter : Meter Tally} (moves : meter.Moves related) {run : Run Tally Value}
  {rest : Run Tally (Except Value (List Value))}

include moves

/-- Going on unless there is a signal. -/
theorem unlessSignal {next : Value → Run Tally Value} (first : run.Moves related)
    (second : ∀ value, (next value).Moves related) : (run.unlessSignal next).Moves related := by
  intro world outcome after ran
  obtain ⟨value, between, ranFirst, ending⟩ := Run.unlessSignal_eq_some_iff.mp ran
  have moved := first world value between ranFirst
  rcases ending with ⟨-, -, same⟩ | ⟨-, ranSecond⟩
  · rw [same]
    exact moved
  · exact moves.trans moved (second value between outcome after ranSecond)

/-- Going on unless the values ended in a signal. -/
theorem unlessStopped {next : List Value → Run Tally Value} (first : rest.Moves related)
    (second : ∀ values, (next values).Moves related) :
    (rest.unlessStopped next).Moves related := by
  intro world outcome after ran
  rcases Run.unlessStopped_eq_some_iff.mp ran with stopped | ⟨values, between, all, ranSecond⟩
  · exact first world _ after stopped
  · exact moves.trans (first world _ between all) (second values between outcome after ranSecond)

/-- Putting a value before others. -/
theorem followedBy (first : run.Moves related) (second : rest.Moves related) :
    (run.followedBy rest).Moves related := by
  intro world outcome after ran
  obtain ⟨value, between, ranFirst, ending⟩ := Run.followedBy_eq_some_iff.mp ran
  have moved := first world value between ranFirst
  rcases ending with ⟨-, -, same⟩ | ⟨-, others, ranSecond, -⟩
  · rw [same]
    exact moved
  · exact moves.trans moved (second between others after ranSecond)

end

section

variable {machine : Machine Tally} (moves : machine.meter.Moves related)

include moves

/-- Visiting a node. -/
theorem visit (line : Int) {run : Run Tally Value} (inside : run.Moves related) :
    (machine.visit line run).Moves related := by
  intro world outcome after ran
  rcases Machine.visit_eq_some_iff.mp ran with ⟨-, -, same⟩ | ⟨tally, passed, ranInside⟩
  · rw [same]
    exact moves.refl world.tally
  · exact moves.trans (moves.visit passed) (inside _ outcome after ranInside)

variable {invoke : Invoke Tally}
  (bodies : ∀ body scope, (invoke body scope).Moves related)

include bodies

/-- Calling a value. -/
theorem apply (callee : Value) (args : List Value) (line : Int) :
    (machine.apply invoke callee args line).Moves related := by
  refine machine.apply_related machine invoke invoke (fun run _ => run.Moves related) rfl
    (done moves.refl) line ?_ callee args
  intro body outer bindings world outcome after ran
  rcases Machine.enter_eq_some_iff.mp ran with
    ⟨-, -, same⟩ | ⟨tally, value, inside, entered, ranBody, -, same⟩
  · rw [same]
    exact moves.refl world.tally
  · rw [same]
    exact moves.call entered (bodies body _ _ value inside ranBody)

end

end Run.Moves

namespace Meter.Moves

variable {machine : Machine Tally} (moves : machine.meter.Moves related)

/-- The steps of an evaluation move the tally as the meter does. -/
def parallel {invoke : Invoke Tally} (bodies : ∀ body scope, (invoke body scope).Moves related)
    (scope : ScopeId) : Parallel machine invoke machine invoke scope where
  value run _ := run.Moves related
  values run _ := run.Moves related
  done result := .done moves.refl result
  nil := .done moves.refl _
  resolve _ := .read moves.refl _
  bind name result := .bind moves.refl scope name result
  unlessSignal first second := .unlessSignal moves first second
  followedBy first second := .followedBy moves first second
  unwrapped inside := .unwrapped inside
  visit line _ _ inside := .visit moves line inside
  call line _ _ _ _ callee args := .visit moves line (.unlessSignal moves callee fun function =>
    .unlessStopped moves args fun values => .apply moves bodies function values line)

include moves

/-- Bodies move the tally as the meter does, however deep calls may nest. -/
theorem invoke (bound : Nat) (body : Block) (scope : ScopeId) :
    (machine.invoke bound body scope).Moves related := by
  induction bound generalizing body scope with
  | zero => exact fun _ _ _ ran => nomatch ran
  | succ bound ih => exact (moves.parallel ih scope).block body

/-- Nodes move the tally as the meter does. -/
theorem node (bound : Nat) (node : Node) (scope : ScopeId) :
    (node.eval machine (machine.invoke bound) scope).Moves related :=
  (moves.parallel (moves.invoke bound) scope).node node

end Meter.Moves

end Lengua
