import Lengua.Proofs.Eval.Ledger
import Lengua.Proofs.Eval.Termination

/-!
# Stricter limits

A run under some limits is compared with one under freer limits that keeps a ledger. The two are
in step until a bound of the first is met. A bounded run always ends, so it ends as the freer
one does, or was broken off where the ledger of the freer one went on; and if the freer one
never ends, the first was broken off.
-/

namespace Lengua

namespace Limits

variable {strict free : Limits} {host : Host} {node : Node} {scope : ScopeId} {forest : Forest}

/-- A bounded run has a history. -/
theorem exists_history {limits : Limits} (bounded : limits.gas ≠ 0 ∨ limits.depth ≠ 0)
    (host : Host) (fallback : Nat) (node : Node) (scope : ScopeId) (forest : Forest) :
    ∃ value after ledger,
      limits.history host fallback node scope forest = some (value, after, ledger) := by
  obtain ⟨value, after, -, evaluated⟩ :=
    eval_of_bounded bounded host fallback node scope forest
  rw [evaluate_eq_history] at evaluated
  obtain ⟨⟨result, last, ledger⟩, recorded, -⟩ := Option.map_eq_some_iff.mp evaluated
  exact ⟨result, last, ledger, recorded⟩

/-- What the limits keep about their ledger holds at the end. -/
theorem history_keeps {limits : Limits} {holds : Budget × Ledger Budget → Prop}
    (keeps : limits.meter.recorded.Keeps holds) (start : holds (limits.budget, .empty))
    {fallback : Nat} {value : Value} {after : Forest} {ledger : Ledger Budget}
    (ended : limits.history host fallback node scope forest = some (value, after, ledger)) :
    ∃ budget, holds (budget, ledger) := by
  obtain ⟨budget, recorded⟩ := (limits.history_eq_some_iff host fallback node scope forest).mp ended
  have moves : (Machine.recorded ⟨limits.meter, host⟩).meter.Moves fun before after =>
    holds before → holds after := keeps.moves
  exact ⟨budget, moves.node _ node scope _ _ _ recorded start⟩

/-- A bounded run against the history of a freer one: both end alike, or the first was broken off
at a point that the ledger of the second has gone past. -/
theorem evaluate_of_history
    (step : Lockstep ⟨strict.meter, host⟩ (Machine.recorded ⟨free.meter, host⟩))
    (start : step.agrees strict.budget (free.budget, .empty))
    (bounded : strict.gas ≠ 0 ∨ strict.depth ≠ 0) {fallback : Nat} {result : Value}
    {last : Forest} {ledger : Ledger Budget}
    (ended : free.history host fallback node scope forest = some (result, last, ledger)) :
    ∃ value after, strict.evaluate host fallback node scope forest = some (value, after) ∧
      (value = result ∧ after = last ∧ (∃ budget rest, step.agrees budget (rest, ledger)) ∨
        ∃ rest, step.broken value after (rest, ledger)) := by
  obtain ⟨value, after, ran, evaluated⟩ :=
    strict.eval_of_bounded bounded host fallback node scope forest
  obtain ⟨rest, recorded⟩ := (free.history_eq_some_iff host fallback node scope forest).mp ended
  let more := max (strict.nesting fallback) (free.nesting fallback)
  have further := Node.eval_invoke_mono (Nat.le_max_right _ _ : free.nesting fallback ≤ more)
    recorded
  have compared := step.node (Nat.le_max_left _ _ : strict.nesting fallback ≤ more) node scope
    ⟨forest, strict.budget⟩ (free.budget, .empty) start value after ran
  refine ⟨value, after.forest, evaluated, ?_⟩
  cases compared with
  | inStep tally same agree =>
    rw [further] at same
    cases same
    exact .inl ⟨rfl, rfl, after.tally, rest, agree⟩
  | brokenOff error stop past later =>
    rw [show value = error from stop]
    exact .inr ⟨rest, later result _ further⟩

/-- A bounded run against one that never ends: the first was broken off. -/
theorem evaluate_of_endless
    (step : Lockstep ⟨strict.meter, host⟩ (Machine.recorded ⟨free.meter, host⟩))
    (start : step.agrees strict.budget (free.budget, .empty))
    (bounded : strict.gas ≠ 0 ∨ strict.depth ≠ 0)
    (endless : ∀ fallback, free.evaluate host fallback node scope forest = none)
    (fallback : Nat) : ∃ value after tally,
      strict.evaluate host fallback node scope forest = some (value, after) ∧
        step.broken value after tally := by
  obtain ⟨value, after, ran, evaluated⟩ :=
    strict.eval_of_bounded bounded host fallback node scope forest
  have unbounded : free.gas = 0 ∧ free.depth = 0 := by
    by_cases either : free.gas ≠ 0 ∨ free.depth ≠ 0
    · obtain ⟨_, _, -, found⟩ := free.eval_of_bounded either host 0 node scope forest
      rw [endless 0] at found
      cases found
    · omega
  -- Without bounds any number of nested calls can be followed, also that of the strict run.
  let bound := strict.nesting fallback
  have followed : free.nesting bound = bound := by
    simp [nesting, unbounded]
  have noHistory : free.history host bound node scope forest = none := by
    rw [← Option.map_eq_none_iff, ← evaluate_eq_history]
    exact endless bound
  have compared := step.node (Nat.le_refl bound) node scope
    ⟨forest, strict.budget⟩ (free.budget, .empty) start value after ran
  cases compared with
  | inStep tally same agree =>
    have recorded : free.history host bound node scope forest =
        some (value, after.forest, tally.2) := by
      rw [history_eq_some_iff, followed]
      exact ⟨tally.1, same⟩
    rw [noHistory] at recorded
    cases recorded
  | brokenOff error stop past later =>
    obtain ⟨tally, isPast⟩ := past
    rw [← show value = error from stop] at isPast
    exact ⟨value, after.forest, tally, evaluated, isPast⟩

end Limits

end Lengua
