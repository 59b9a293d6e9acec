import Lengua.Proofs.Eval.Threshold

/-!
# The bound on active calls is an exact threshold

The run without a bound on active calls shows in its ledger how deep calls nest. A bound that
leaves room for the deepest changes nothing, and a smaller one breaks the run off at the first
call it has no room for. The counter of active calls is raised when a call is entered and lowered
when it has ended, however it ended, so that every evaluation leaves it as it was.
-/

namespace Lengua

namespace Limits

/-- A run with a bound on active calls is in step with one without until a call would be one level
deeper. -/
def depthLockstep {depth : Nat} (bounded : depth ≠ 0) (gas : Nat) (host : Host) :
    Lockstep ⟨(Limits.mk gas depth).meter, host⟩
      (Machine.recorded ⟨(Limits.mk gas 0).meter, host⟩) where
  agrees budget other := budget = other.1 ∧ other.2.active = budget.depth ∧
    budget.depth ≤ depth ∧ ∀ call ∈ other.2.calls, call.level ≤ depth
  broken error _ other := ∃ call, other.2.calls.find? (·.level == depth + 1) = some call ∧
    error = .error .tooDeep call.line
  host := rfl
  isError := by
    rintro _ _ _ ⟨call, -, rfl⟩
    rfl
  visit := by
    rintro budget ⟨_, ledger⟩ ⟨rfl, active, within, levels⟩ line forest
    -- Whether a visit passes does not depend on the bound on active calls.
    change Meter.Answers _ _ ((Limits.mk gas 0).meter.visit line forest budget)
      (((Limits.mk gas 0).meter.visit line forest budget).map _)
    cases passed : (Limits.mk gas 0).meter.visit line forest budget with
    | none => exact .neither
    | some next =>
      have same : next.depth = budget.depth := by
        rcases visit_eq_some_iff.mp passed with ⟨-, rfl⟩ | ⟨-, -, rfl⟩ <;> rfl
      exact .both ⟨rfl, active.trans same.symm, same ▸ within, levels⟩
  enter := by
    rintro budget ⟨_, ledger⟩ ⟨rfl, active, within, levels⟩ line forest
    dsimp only at active within levels
    let entered : Budget := { budget with depth := budget.depth + 1 }
    have passes : (Machine.recorded ⟨(Limits.mk gas 0).meter, host⟩).meter.enter line
        (budget, ledger) = some (entered, ledger.enter line entered) :=
      Meter.recorded_enter_eq_some_iff.mpr
        ⟨entered, enter_eq_some_iff.mpr ⟨absurd rfl, rfl⟩, rfl⟩
    rw [passes]
    by_cases full : depth ≤ budget.depth
    · have refused : (Limits.mk gas depth).meter.enter line budget = none :=
        enter_eq_none_iff.mpr ⟨bounded, full⟩
      rw [refused]
      have level : ledger.active + 1 = depth + 1 := by omega
      have none : ledger.calls.find? (·.level == depth + 1) = none := by
        rw [List.find?_eq_none]
        intro call mem
        have := levels call mem
        simp only [beq_iff_eq]
        omega
      refine .alone ⟨⟨line, ledger.active + 1, entered⟩, ?_, rfl⟩
      simp [Ledger.enter, none, level]
    · have passed : (Limits.mk gas depth).meter.enter line budget = some entered :=
        enter_eq_some_iff.mpr ⟨fun _ => Nat.lt_of_not_le full, rfl⟩
      rw [passed]
      refine .both ⟨rfl, congrArg (· + 1) active, Nat.lt_of_not_le full, ?_⟩
      intro call mem
      rcases List.mem_append.mp mem with old | new
      · exact levels call old
      · rw [List.mem_singleton.mp new]
        dsimp only
        omega
  leave := by
    rintro budget ⟨_, ledger⟩ ⟨rfl, active, within, levels⟩
    exact ⟨rfl, congrArg (· - 1) active, Nat.le_trans (Nat.sub_le _ _) within, levels⟩
  keeps error forest := {
    visit := by
      rintro line scopes before _ passed held
      obtain ⟨next, -, rfl⟩ := Meter.recorded_visit_eq_some_iff.mp passed
      exact held
    enter := by
      rintro line before _ passed ⟨call, found, same⟩
      obtain ⟨next, -, rfl⟩ := Meter.recorded_enter_eq_some_iff.mp passed
      exact ⟨call, by simp [Ledger.enter, found], same⟩
    leave := id }

/-- The two runs start in step. -/
theorem depthLockstep_start {depth : Nat} (bounded : depth ≠ 0) (gas : Nat) (host : Host) :
    (depthLockstep bounded gas host).agrees (Limits.mk gas depth).budget
      ((Limits.mk gas 0).budget, .empty) :=
  ⟨rfl, rfl, Nat.zero_le _, List.forall_mem_nil _⟩

/-- A run leaves as many calls active as it found. -/
theorem moves_depth (limits : Limits) :
    limits.meter.Moves fun before after => after.depth = before.depth where
  refl _ := rfl
  trans first second := second.trans first
  visit passed := by
    rcases visit_eq_some_iff.mp passed with ⟨-, rfl⟩ | ⟨-, -, rfl⟩ <;> rfl
  call {line before entered ended} passed inside := by
    obtain ⟨-, rfl⟩ := enter_eq_some_iff.mp passed
    simp [meter, inside]

/-- The counter of the limits shows how many calls are active, and stays within the bound. -/
theorem keeps_levels (limits : Limits) : limits.meter.recorded.Keeps fun tally =>
    tally.2.active = tally.1.depth ∧ ∀ call ∈ tally.2.calls,
      call.tally.depth = call.level ∧ (limits.depth ≠ 0 → call.level ≤ limits.depth) where
  visit := by
    rintro line forest before _ passed ⟨active, levels⟩
    obtain ⟨next, taken, rfl⟩ := Meter.recorded_visit_eq_some_iff.mp passed
    exact ⟨active.trans (limits.moves_depth.visit taken).symm, levels⟩
  enter := by
    rintro line before _ passed ⟨active, levels⟩
    obtain ⟨next, entered, rfl⟩ := Meter.recorded_enter_eq_some_iff.mp passed
    obtain ⟨below, rfl⟩ := enter_eq_some_iff.mp entered
    refine ⟨congrArg (· + 1) active, fun call mem => ?_⟩
    rcases List.mem_append.mp mem with old | new
    · exact levels call old
    · rw [List.mem_singleton.mp new]
      exact ⟨congrArg (· + 1) active.symm, fun bounded => by
        have room := below bounded
        dsimp only
        omega⟩
  leave held := ⟨congrArg (· - 1) held.1, held.2⟩

/-- The bound on active calls is an exact threshold. If the run without one ends, every bound that
is at least the largest number of calls active at once gives the same result and the same scopes,
and every smaller one gives an error at the line of the first call that would be one level deeper.
Every evaluation of a node or a block and every call leaves the counter of active calls as it found
it, however it ends, and wherever the counter is raised it shows how many calls are active and
stays within the bound. -/
theorem evaluate_depth (host : Host) (node : Node) (scope : ScopeId) (forest : Forest) :
    (∀ gas fallback value after ledger,
      (Limits.mk gas 0).history host fallback node scope forest = some (value, after, ledger) →
        (∀ depth, depth = 0 ∨ ledger.deepest ≤ depth →
          (Limits.mk gas depth).evaluate host fallback node scope forest = some (value, after)) ∧
        ∀ depth, depth ≠ 0 → depth < ledger.deepest → ∃ call last,
          ledger.calls.find? (·.level == depth + 1) = some call ∧
            (Limits.mk gas depth).evaluate host fallback node scope forest =
              some (.error .tooDeep call.line, last)) ∧
    (∀ (limits : Limits) (bound : Nat) (before after : World Budget) (outcome : Value),
      let machine : Machine Budget := ⟨limits.meter, host⟩
      (node.eval machine (machine.invoke bound) scope before = some (outcome, after) →
        after.tally.depth = before.tally.depth) ∧
      (∀ block : Block,
        block.eval machine (machine.invoke bound) scope before = some (outcome, after) →
          after.tally.depth = before.tally.depth) ∧
      ∀ callee args line,
        machine.apply (machine.invoke bound) callee args line before = some (outcome, after) →
          after.tally.depth = before.tally.depth) ∧
    ∀ (limits : Limits) fallback value after ledger,
      limits.history host fallback node scope forest = some (value, after, ledger) →
        ∀ call ∈ ledger.calls, call.tally.depth = call.level ∧
          (limits.depth ≠ 0 → call.level ≤ limits.depth) := by
  refine ⟨fun gas fallback value after ledger ended => ⟨?_, ?_⟩, ?_, ?_⟩
  · intro depth enough
    by_cases bounded : depth = 0
    · rw [bounded, evaluate_eq_history, ended]
      rfl
    · obtain ⟨result, last, evaluated, outcome⟩ :=
        evaluate_of_history (depthLockstep bounded gas host) (depthLockstep_start bounded gas host)
          (.inr bounded) ended
      rcases outcome with ⟨rfl, rfl, -⟩ | ⟨rest, call, found, -⟩
      · exact evaluated
      · have shallow := Ledger.deepest_le_iff.mp (enough.resolve_left bounded) call
          (List.mem_of_find?_eq_some found)
        have level := List.find?_some found
        simp only [beq_iff_eq] at level
        omega
  · intro depth bounded deeper
    obtain ⟨result, last, evaluated, outcome⟩ :=
      evaluate_of_history (depthLockstep bounded gas host) (depthLockstep_start bounded gas host)
        (.inr bounded) ended
    rcases outcome with ⟨-, -, budget, rest, -, -, -, levels⟩ | ⟨rest, call, found, rfl⟩
    · have shallow := Ledger.deepest_le_iff.mpr levels
      dsimp only at shallow
      omega
    · exact ⟨call, last, found, evaluated⟩
  · intro limits bound before after outcome
    have moves : (Machine.mk limits.meter host).meter.Moves fun before after =>
      after.depth = before.depth := limits.moves_depth
    refine ⟨fun ran => ?_, fun block ran => ?_, fun callee args line ran => ?_⟩
    · exact moves.node bound node scope before outcome after ran
    · exact moves.invoke (bound + 1) block scope before outcome after ran
    · exact Run.Moves.apply moves (moves.invoke bound) callee args line before outcome after ran
  · intro limits fallback value after ledger ended
    obtain ⟨budget, -, levels⟩ :=
      history_keeps limits.keeps_levels ⟨rfl, List.forall_mem_nil _⟩ ended
    exact levels

/-- One call inside another, on different lines. Room for two changes nothing, and room for one
breaks the run off at the inner call. -/
theorem evaluate_depth_two_calls :
    let node := Node.program (Program.ofText
      (utf8 "procedimiento() \x7b\nprocedimiento() \x7b 7 \x7d()\n\x7d()")).program
    ∃ value after,
      (Limits.mk 0 0).evaluate .empty 2 node 0 .single = some (value, after) ∧
      (Limits.mk 0 2).evaluate .empty 2 node 0 .single = some (value, after) ∧
      ∃ last, (Limits.mk 0 1).evaluate .empty 2 node 0 .single =
        some (.error .tooDeep 2, last) := by
  intro node
  have traced : ((Limits.mk 0 0).history .empty 2 node 0 .single).map (fun found =>
      (found.2.2.deepest, (found.2.2.calls.find? (·.level == 2)).map Call.line)) =
      some (2, some 2) := by
    decide +kernel
  obtain ⟨⟨value, after, ledger⟩, ended, facts⟩ := Option.map_eq_some_iff.mp traced
  obtain ⟨deepest, inner⟩ := Prod.mk.inj facts
  dsimp only at deepest inner
  obtain ⟨enough, deeper⟩ :=
    (evaluate_depth .empty node 0 .single).1 0 2 value after ledger ended
  obtain ⟨call, last, found, brokenOff⟩ := deeper 1 (by decide) (by omega)
  rw [found] at inner
  rw [Option.some.inj inner] at brokenOff
  exact ⟨value, after, enough 0 (.inl rfl), enough 2 (.inr (by omega)), last, brokenOff⟩

end Limits

end Lengua
