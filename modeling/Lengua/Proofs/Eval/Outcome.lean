import Lengua.Eval

/-!
# Steps that have an outcome

What a step that has an outcome has done, for each way of putting steps together. The rules
read both ways: they take a run apart, and they put one together.
-/

namespace Lengua

variable {Tally : Type}

namespace Run

variable {run : Run Tally Value} {rest : Run Tally (Except Value (List Value))}
  {next : Value → Run Tally Value} {nextAll : List Value → Run Tally Value}
  {world last : World Tally} {outcome : Value}

/-- Going on unless there is a signal. -/
theorem unlessSignal_eq_some_iff : run.unlessSignal next world = some (outcome, last) ↔
    ∃ value between, run world = some (value, between) ∧
      (value.isSignal = true ∧ outcome = value ∧ last = between ∨
        value.isSignal = false ∧ next value between = some (outcome, last)) := by
  unfold Run.unlessSignal
  cases ran : run world with
  | none => simp
  | some found =>
    obtain ⟨value, between⟩ := found
    cases signal : value.isSignal <;> grind

/-- Going on unless the values ended in a signal. -/
theorem unlessStopped_eq_some_iff : rest.unlessStopped nextAll world = some (outcome, last) ↔
    rest world = some (.error outcome, last) ∨
      ∃ values between, rest world = some (.ok values, between) ∧
        nextAll values between = some (outcome, last) := by
  unfold Run.unlessStopped
  cases ran : rest world with
  | none => simp
  | some found =>
    obtain ⟨found, between⟩ := found
    cases found <;> grind

/-- Putting a value before others. -/
theorem followedBy_eq_some_iff {outcome : Except Value (List Value)} :
    run.followedBy rest world = some (outcome, last) ↔
      ∃ value between, run world = some (value, between) ∧
        (value.isSignal = true ∧ outcome = .error value ∧ last = between ∨
          value.isSignal = false ∧ ∃ others, rest between = some (others, last) ∧
            outcome = others.map (value :: ·)) := by
  unfold Run.followedBy
  cases ran : run world with
  | none => simp
  | some found =>
    obtain ⟨value, between⟩ := found
    cases signal : value.isSignal with
    | true => grind
    | false =>
      cases ended : rest between with
      | none => simp [signal, ended]
      | some found =>
        obtain ⟨others, after⟩ := found
        cases others <;> grind [Except.map]

/-- Putting a value before others, when none of them is a signal. -/
theorem followedBy_eq_ok_iff {values : List Value} :
    run.followedBy rest world = some (.ok values, last) ↔
      ∃ value between others, run world = some (value, between) ∧ value.isSignal = false ∧
        rest between = some (.ok others, last) ∧ values = value :: others := by
  rw [followedBy_eq_some_iff]
  constructor
  · rintro ⟨value, between, ran, ⟨-, impossible, -⟩ | ⟨plain, others, ranRest, all⟩⟩
    · cases impossible
    · cases others with
      | error signal => cases all
      | ok others => exact ⟨value, between, others, ran, plain, ranRest, Except.ok.inj all⟩
  · rintro ⟨value, between, others, ran, plain, ranRest, rfl⟩
    exact ⟨value, between, ran, .inr ⟨plain, .ok others, ranRest, rfl⟩⟩

/-- Leaving a procedure. -/
theorem unwrapped_eq_some_iff : run.unwrapped world = some (outcome, last) ↔
    ∃ value, run world = some (value, last) ∧ outcome = value.unwrapped := by
  unfold Run.unwrapped
  cases ran : run world with
  | none => simp
  | some found =>
    obtain ⟨value, between⟩ := found
    grind

end Run

namespace Machine

variable {machine : Machine Tally} {invoke : Invoke Tally} {world last : World Tally}
  {outcome : Value} {line : Int}

/-- Visiting a node: it is refused, or what follows goes on from the new tally. -/
theorem visit_eq_some_iff {run : Run Tally Value} :
    machine.visit line run world = some (outcome, last) ↔
      machine.meter.visit line world.forest world.tally = none ∧
          outcome = .error .gasExhausted line ∧ last = world ∨
        ∃ tally, machine.meter.visit line world.forest world.tally = some tally ∧
          run { world with tally } = some (outcome, last) := by
  unfold Machine.visit
  cases machine.meter.visit line world.forest world.tally <;> simp [eq_comm]

/-- Entering a body: it is refused, or the body runs in a fresh scope. -/
theorem enter_eq_some_iff {body : Block} {outer : Option ScopeId}
    {bindings : List (Text × Value)} :
    machine.enter invoke body outer bindings line world = some (outcome, last) ↔
      machine.meter.enter line world.tally = none ∧ outcome = .error .tooDeep line ∧ last = world ∨
        ∃ tally value inside, machine.meter.enter line world.tally = some tally ∧
          invoke body (world.forest.add outer).1
            ⟨(world.forest.add outer).2.setAll (world.forest.add outer).1 bindings, tally⟩ =
              some (value, inside) ∧
          outcome = value.unwrapped ∧
          last = { inside with tally := machine.meter.leave inside.tally } := by
  unfold Machine.enter
  cases machine.meter.enter line world.tally with
  | none => simp [eq_comm]
  | some tally =>
    dsimp only
    cases ran : invoke body (world.forest.add outer).1
        ⟨(world.forest.add outer).2.setAll (world.forest.add outer).1 bindings, tally⟩ with
    | none => simp [ran]
    | some found =>
      obtain ⟨value, inside⟩ := found
      grind

end Machine

/-- The run behind an evaluation under limits. -/
theorem Limits.evaluate_eq_some_iff {limits : Limits} {host : Host} {fallback : Nat} {node : Node}
    {scope : ScopeId} {forest after : Forest} {value : Value} :
    limits.evaluate host fallback node scope forest = some (value, after) ↔
      ∃ budget, node.eval ⟨limits.meter, host⟩
        (Machine.invoke ⟨limits.meter, host⟩ (limits.nesting fallback)) scope
        ⟨forest, limits.budget⟩ = some (value, ⟨after, budget⟩) := by
  unfold Limits.evaluate
  dsimp only
  cases node.eval ⟨limits.meter, host⟩
      (Machine.invoke ⟨limits.meter, host⟩ (limits.nesting fallback)) scope
      ⟨forest, limits.budget⟩ with
  | none => simp
  | some found =>
    obtain ⟨result, last, budget⟩ := found
    simp

end Lengua
