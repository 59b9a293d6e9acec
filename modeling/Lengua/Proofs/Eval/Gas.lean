import Lengua.Proofs.Eval.Threshold

/-!
# Gas is an exact threshold

The run without a bound on gas shows in its ledger how many nodes it visits. A bound that pays
for all of them changes nothing. A smaller one breaks the run off at the first visit it does not
pay for, and a run that never ends is broken off by every bound.
-/

namespace Lengua

namespace Limits

/-- A run with a bound on gas is in step with one without until the gas has paid for as many
visits as it can. -/
def gasLockstep {gas : Nat} (bounded : gas ≠ 0) (depth : Nat) (host : Host) :
    Lockstep ⟨(Limits.mk gas depth).meter, host⟩
      (Machine.recorded ⟨(Limits.mk 0 depth).meter, host⟩) where
  agrees budget other :=
    budget.depth = other.1.depth ∧ budget.gas + other.2.visits.length = gas
  broken error forest other := ∃ visit, other.2.visits[gas]? = some visit ∧
    error = .error .gasExhausted visit.line ∧ forest = visit.forest
  host := rfl
  isError := by
    rintro _ _ _ ⟨visit, -, rfl, -⟩
    rfl
  visit := by
    rintro budget other ⟨sameDepth, paid⟩ line forest
    have passes : (Machine.recorded ⟨(Limits.mk 0 depth).meter, host⟩).meter.visit line forest
        other = some (other.1, other.2.visit line forest) :=
      Meter.recorded_visit_eq_some_iff.mpr ⟨_, visit_eq_some_iff.mpr (.inl ⟨rfl, rfl⟩), rfl⟩
    rw [passes]
    by_cases empty : budget.gas = 0
    · have refused : (Limits.mk gas depth).meter.visit line forest budget = none :=
        visit_eq_none_iff.mpr ⟨bounded, empty⟩
      rw [refused]
      have next : other.2.visits.length = gas := by omega
      exact .alone ⟨⟨line, forest⟩, by simp [Ledger.visit, ← next], rfl, rfl⟩
    · have taken : (Limits.mk gas depth).meter.visit line forest budget =
          some { budget with gas := budget.gas - 1 } :=
        visit_eq_some_iff.mpr (.inr ⟨bounded, empty, rfl⟩)
      rw [taken]
      refine .both ⟨sameDepth, ?_⟩
      simp only [Ledger.visit, List.length_append, List.length_singleton]
      omega
  enter := by
    rintro budget other ⟨sameDepth, paid⟩ line forest
    by_cases full : depth ≠ 0 ∧ depth ≤ budget.depth
    · have refused : (Limits.mk gas depth).meter.enter line budget = none :=
        enter_eq_none_iff.mpr full
      have alike : (Limits.mk 0 depth).meter.enter line other.1 = none :=
        enter_eq_none_iff.mpr (sameDepth ▸ full)
      simp only [Machine.recorded, Meter.recorded, refused, alike]
      exact .neither
    · have room : depth ≠ 0 → budget.depth < depth := by omega
      have passed : (Limits.mk gas depth).meter.enter line budget =
          some { budget with depth := budget.depth + 1 } := enter_eq_some_iff.mpr ⟨room, rfl⟩
      have alike : (Limits.mk 0 depth).meter.enter line other.1 =
          some { other.1 with depth := other.1.depth + 1 } :=
        enter_eq_some_iff.mpr ⟨sameDepth ▸ room, rfl⟩
      simp only [Machine.recorded, Meter.recorded, passed, alike]
      exact .both ⟨congrArg (· + 1) sameDepth, paid⟩
  leave := by
    rintro budget other ⟨sameDepth, paid⟩
    exact ⟨congrArg (· - 1) sameDepth, paid⟩
  keeps error forest := {
    visit := by
      rintro line scopes before _ passed ⟨visit, found, facts⟩
      obtain ⟨next, -, rfl⟩ := Meter.recorded_visit_eq_some_iff.mp passed
      have within := (List.getElem?_eq_some_iff.mp found).1
      exact ⟨visit, (List.getElem?_append_left within).trans found, facts⟩
    enter := by
      rintro line before _ passed held
      obtain ⟨next, -, rfl⟩ := Meter.recorded_enter_eq_some_iff.mp passed
      exact held
    leave := id }

/-- With a bound on gas, what is left and what has been visited make up the bound. -/
theorem keeps_gas {limits : Limits} (bounded : limits.gas ≠ 0) :
    limits.meter.recorded.Keeps fun tally =>
      tally.1.gas + tally.2.visits.length = limits.gas where
  visit := by
    rintro line forest before _ passed held
    obtain ⟨next, taken, rfl⟩ := Meter.recorded_visit_eq_some_iff.mp passed
    rcases visit_eq_some_iff.mp taken with ⟨unbounded, -⟩ | ⟨-, some, rfl⟩
    · exact absurd unbounded bounded
    · simp only [Ledger.visit, List.length_append, List.length_singleton]
      omega
  enter := by
    rintro line before _ passed held
    obtain ⟨next, entered, rfl⟩ := Meter.recorded_enter_eq_some_iff.mp passed
    obtain ⟨-, rfl⟩ := enter_eq_some_iff.mp entered
    exact held
  leave := id

/-- Under a bound on gas a run ends, and has visited no more nodes than the bound. -/
theorem visits_le_gas (limits : Limits) (bounded : limits.gas ≠ 0) (host : Host)
    (fallback : Nat) (node : Node) (scope : ScopeId) (forest : Forest) : ∃ visits,
      limits.visits host fallback node scope forest = some visits ∧ visits ≤ limits.gas := by
  obtain ⟨value, after, ledger, recorded⟩ :=
    exists_history (.inl bounded) host fallback node scope forest
  obtain ⟨budget, paid⟩ := history_keeps (keeps_gas bounded) (Nat.add_zero limits.gas) recorded
  refine ⟨ledger.visits.length, ?_, Nat.le.intro (Nat.add_comm .. ▸ paid)⟩
  rw [visits_eq_history, recorded]
  rfl

end Limits

/-- Whether there is no node. -/
def Node.isAbsent : Node → Bool
  | .stmt .absent | .expr .absent => true
  | _ => false

/-- A node that is there is visited before anything else happens to it, at its own line. -/
theorem Node.eval_eq_visit {Tally : Type} (machine : Machine Tally) (invoke : Invoke Tally)
    (scope : ScopeId) {node : Node} (present : node.isAbsent = false) :
    ∃ step, node.eval machine invoke scope = machine.visit node.line step := by
  cases node with
  | program whole => exact ⟨_, rfl⟩
  | stmt single =>
    cases single with
    | absent => cases present
    | _ => exact ⟨_, rfl⟩
  | expr single =>
    cases single with
    | absent => cases present
    | _ => exact ⟨_, rfl⟩

namespace Limits

/-- Gas is an exact threshold. If the run without a bound on gas ends, every bound that pays for
all its visits gives the same result and the same scopes, and every smaller one gives an error at
the line of the first visit it does not pay for, with the scopes as they are just before that
visit. If the run does not end, every bound gives such an error. No run visits more nodes than
its bound. The lines are those of the nodes, since every node reports its own. -/
theorem evaluate_gas (depth : Nat) (host : Host) (node : Node) (scope : ScopeId)
    (forest : Forest) :
    (∀ fallback value after ledger,
      (Limits.mk 0 depth).history host fallback node scope forest = some (value, after, ledger) →
        (∀ gas, gas = 0 ∨ ledger.visits.length ≤ gas →
          (Limits.mk gas depth).evaluate host fallback node scope forest = some (value, after)) ∧
        ∀ gas, gas ≠ 0 → ∀ unpaid : gas < ledger.visits.length,
          (Limits.mk gas depth).evaluate host fallback node scope forest =
            some (.error .gasExhausted ledger.visits[gas].line, ledger.visits[gas].forest)) ∧
    ((∀ fallback, (Limits.mk 0 depth).evaluate host fallback node scope forest = none) →
      ∀ gas, gas ≠ 0 → ∀ fallback, ∃ line after,
        (Limits.mk gas depth).evaluate host fallback node scope forest =
          some (.error .gasExhausted line, after)) ∧
    (∀ gas, gas ≠ 0 → ∀ fallback, ∃ visits,
      (Limits.mk gas depth).visits host fallback node scope forest = some visits ∧
        visits ≤ gas) ∧
    (node.isAbsent = false → ∀ (Tally : Type) (machine : Machine Tally) (invoke : Invoke Tally),
      ∃ step, node.eval machine invoke scope = machine.visit node.line step) := by
  refine ⟨fun fallback value after ledger ended => ⟨?_, ?_⟩, ?_, ?_, ?_⟩
  · intro gas enough
    by_cases bounded : gas = 0
    · rw [bounded, evaluate_eq_history, ended]
      rfl
    · obtain ⟨result, last, evaluated, outcome⟩ :=
        evaluate_of_history (gasLockstep bounded depth host) ⟨rfl, rfl⟩ (.inl bounded) ended
      rcases outcome with ⟨rfl, rfl, -⟩ | ⟨rest, visit, found, -⟩
      · exact evaluated
      · have unpaid := (List.getElem?_eq_some_iff.mp found).1
        dsimp only at unpaid
        omega
  · intro gas bounded unpaid
    obtain ⟨result, last, evaluated, outcome⟩ :=
      evaluate_of_history (gasLockstep bounded depth host) ⟨rfl, rfl⟩ (.inl bounded) ended
    rcases outcome with ⟨-, -, budget, rest, -, paid⟩ | ⟨rest, visit, found, rfl, rfl⟩
    · dsimp only at paid
      omega
    · have same : ledger.visits[gas] = visit := (List.getElem?_eq_some_iff.mp found).2
      rw [same]
      exact evaluated
  · intro endless gas bounded fallback
    obtain ⟨_, last, _, evaluated, visit, -, rfl, -⟩ := evaluate_of_endless
      (gasLockstep bounded depth host) ⟨rfl, rfl⟩ (.inl bounded) endless fallback
    exact ⟨visit.line, last, evaluated⟩
  · intro gas bounded fallback
    exact visits_le_gas (.mk gas depth) bounded host fallback node scope forest
  · intro present Tally machine invoke
    exact node.eval_eq_visit machine invoke scope present

/-- A program of two lines has seven nodes. Gas for all of them changes nothing, and gas for three
pays for its first statement only. -/
theorem evaluate_gas_two_lines :
    let node := Node.program (Program.ofText (utf8 "x = 1;\nx + 2")).program
    ∃ value after,
      (Limits.mk 0 0).evaluate .empty 0 node 0 .single = some (value, after) ∧
      (Limits.mk 7 0).evaluate .empty 0 node 0 .single = some (value, after) ∧
      ∃ last, last.names 0 = [utf8 "x"] ∧
        (Limits.mk 3 0).evaluate .empty 0 node 0 .single =
          some (.error .gasExhausted 2, last) := by
  intro node
  have traced : ((Limits.mk 0 0).history .empty 0 node 0 .single).map (fun found =>
      (found.2.2.visits.length,
        found.2.2.visits[3]?.map fun visit => (visit.line, visit.forest.names 0))) =
      some (7, some (2, [utf8 "x"])) := by
    decide +kernel
  obtain ⟨⟨value, after, ledger⟩, ended, facts⟩ := Option.map_eq_some_iff.mp traced
  obtain ⟨seven, fourth⟩ := Prod.mk.inj facts
  dsimp only at seven fourth
  have there : 3 < ledger.visits.length := by omega
  rw [List.getElem?_eq_getElem there] at fourth
  obtain ⟨line, names⟩ := Prod.mk.inj (Option.some.inj fourth)
  obtain ⟨paid, unpaid⟩ := (evaluate_gas 0 .empty node 0 .single).1 0 value after ledger ended
  have brokenOff := unpaid 3 (by decide) there
  rw [line] at brokenOff
  exact ⟨value, after, paid 0 (.inl rfl), paid 7 (.inr (by omega)), _, names, brokenOff⟩

end Limits

end Lengua
