import Lengua.Scope

/-!
# Metering

An evaluation reports every node before it visits it and every call before it enters
it, and a meter may refuse. The meter is a parameter of the evaluation: `Limits.meter`
enforces bounds, and a meter that only records what it is told gives an account of the
run. What a meter remembers is its tally.
-/

namespace Lengua

/-- What watches over an evaluation. A refusal is `none`. -/
structure Meter (Tally : Type) where
  /-- Told of a node about to be visited, by its line, with the scopes as they are. -/
  visit : Int → Forest → Tally → Option Tally
  /-- Told of a call about to be entered, by its line. -/
  enter : Int → Tally → Option Tally
  /-- Told of a call that has ended. -/
  leave : Tally → Tally

/-- Bounds on an evaluation. Zero stands for no bound. -/
structure Limits where
  /-- The most nodes that may be visited. -/
  gas : Nat
  /-- The most calls that may be active at once. -/
  depth : Nat

/-- What is left of the bounds. -/
structure Budget where
  /-- The nodes that may still be visited. -/
  gas : Nat
  /-- The calls that are active. -/
  depth : Nat

namespace Limits

/-- The bounds an evaluation has when none are given. -/
def default : Limits := ⟨0, 1024⟩

/-- The bounds with those replaced that are given and not negative. -/
def override (limits : Limits) (gas depth : Option Int) : Limits :=
  let chosen (given : Option Int) (current : Nat) : Nat :=
    match given with
    | some (.ofNat n) => n
    | _ => current
  ⟨chosen gas limits.gas, chosen depth limits.depth⟩

/-- What an evaluation starts with. -/
def budget (limits : Limits) : Budget := ⟨limits.gas, 0⟩

/-- The meter that enforces bounds. -/
def meter (limits : Limits) : Meter Budget where
  visit _ _ budget :=
    if limits.gas = 0 then some budget
    else if budget.gas = 0 then none
    else some { budget with gas := budget.gas - 1 }
  enter _ budget :=
    if limits.depth ≠ 0 ∧ limits.depth ≤ budget.depth then none
    else some { budget with depth := budget.depth + 1 }
  leave budget := { budget with depth := budget.depth - 1 }

/-- A visit passes free of charge without a bound on gas, and takes one of what is left with
one. -/
theorem visit_eq_some_iff {limits : Limits} {line : Int} {forest : Forest} {before after : Budget} :
    limits.meter.visit line forest before = some after ↔
      limits.gas = 0 ∧ after = before ∨
        limits.gas ≠ 0 ∧ before.gas ≠ 0 ∧ after = { before with gas := before.gas - 1 } := by
  by_cases unbounded : limits.gas = 0
  · simp [meter, unbounded, eq_comm]
  · by_cases empty : before.gas = 0
    · simp [meter, unbounded, empty]
    · simp [meter, unbounded, empty, eq_comm]

/-- A visit is refused when a bound on gas has nothing left. -/
theorem visit_eq_none_iff {limits : Limits} {line : Int} {forest : Forest} {before : Budget} :
    limits.meter.visit line forest before = none ↔ limits.gas ≠ 0 ∧ before.gas = 0 := by
  by_cases unbounded : limits.gas = 0
  · simp [meter, unbounded]
  · by_cases empty : before.gas = 0
    · simp [meter, unbounded, empty]
    · simp [meter, unbounded, empty]

/-- A call passes without a bound on depth or below it, and is then active. -/
theorem enter_eq_some_iff {limits : Limits} {line : Int} {before after : Budget} :
    limits.meter.enter line before = some after ↔
      (limits.depth ≠ 0 → before.depth < limits.depth) ∧
        after = { before with depth := before.depth + 1 } := by
  by_cases deep : limits.depth ≠ 0 ∧ limits.depth ≤ before.depth
  · have refused : ¬ (limits.depth ≠ 0 → before.depth < limits.depth) := by omega
    simp only [meter, if_pos deep]
    exact ⟨fun same => (nomatch same), fun passed => absurd passed.1 refused⟩
  · have passes : limits.depth ≠ 0 → before.depth < limits.depth := by omega
    simp only [meter, if_neg deep, Option.some.injEq]
    exact ⟨fun same => ⟨passes, same.symm⟩, fun same => same.2.symm⟩

/-- A call is refused when as many are active as a bound on depth allows. -/
theorem enter_eq_none_iff {limits : Limits} {line : Int} {before : Budget} :
    limits.meter.enter line before = none ↔ limits.depth ≠ 0 ∧ limits.depth ≤ before.depth := by
  simp [meter]

/-- A number of nested calls that an evaluation cannot exceed: the bound on active calls, or
else the bound on visits, since every call visits a node. Without either there is none, and
`fallback` is taken. -/
def nesting (limits : Limits) (fallback : Nat) : Nat :=
  if limits.depth ≠ 0 then limits.depth
  else if limits.gas ≠ 0 then limits.gas
  else fallback

end Limits

end Lengua
