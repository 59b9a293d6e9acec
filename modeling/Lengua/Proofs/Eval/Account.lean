import Lengua.Proofs.Eval.Simulation

/-!
# Counting visits

An evaluation under limits together with the number of nodes it has visited. The count is
kept by a meter that asks the meter of the limits and remembers how often it was let pass,
so the evaluation itself is the same with it and without.
-/

namespace Lengua

/-- A meter that also counts the visits another one lets pass. -/
def Meter.counted {Tally : Type} (meter : Meter Tally) : Meter (Tally × Nat) where
  visit line forest tally :=
    (meter.visit line forest tally.1).map fun next => (next, tally.2 + 1)
  enter line tally := (meter.enter line tally.1).map fun next => (next, tally.2)
  leave tally := (meter.leave tally.1, tally.2)

/-- A machine that also counts the nodes it visits. -/
def Machine.counted {Tally : Type} (machine : Machine Tally) : Machine (Tally × Nat) :=
  { machine with meter := machine.meter.counted }

/-- Leaving the count out. -/
def Simulation.uncounted {Tally : Type} (machine : Machine Tally) :
    Simulation machine.counted machine where
  change := .keep
  view := Prod.fst
  word_line _ _ := rfl
  other_line _ := rfl
  visit line forest tally := by
    rw [forest.recast_keep]
    cases found : machine.meter.visit line forest tally.1 <;>
      simp [Machine.counted, Meter.counted, Recast.keep, found]
  enter line tally := by
    cases found : machine.meter.enter line tally.1 <;>
      simp [Machine.counted, Meter.counted, Recast.keep, found]
  leave _ := rfl
  find _ := rfl
  answer name args line := by
    have kept : Value.recast .keep = id := funext Value.recast_keep
    rw [kept, List.map_id]
    rfl

/-- The outcome of an evaluation under limits, with the number of nodes it has visited. -/
def Limits.account (limits : Limits) (host : Host) (fallback : Nat) (node : Node)
    (scope : ScopeId) (forest : Forest) : Option (Value × Forest × Nat) :=
  let machine := Machine.counted ⟨limits.meter, host⟩
  match node.eval machine (machine.invoke (limits.nesting fallback)) scope
      ⟨forest, limits.budget, 0⟩ with
  | none => none
  | some (value, world) => some (value, world.forest, world.tally.2)

/-- The number of nodes an evaluation under limits visits. -/
def Limits.visits (limits : Limits) (host : Host) (fallback : Nat) (node : Node)
    (scope : ScopeId) (forest : Forest) : Option Nat :=
  (limits.account host fallback node scope forest).map fun account => account.2.2

/-- If everything is kept, a node stays as it is. -/
theorem Node.recast_keep (node : Node) : node.recast .keep = node := by
  cases node with
  | program whole => rw [recast, Program.recast, Stmt.recastAll_keep]
  | stmt single => rw [recast, single.recast_keep]
  | expr single => rw [recast, single.recast_keep]

/-- A simulation that keeps every token leaves outcome and scopes as they are. -/
theorem Simulation.node_keep {First Second : Type} {first : Machine First}
    {second : Machine Second} (sim : Simulation first second) (keep : sim.change = .keep)
    (bound : Nat) (node : Node) (scope : ScopeId) (world : World First) :
    node.eval second (second.invoke bound) scope ⟨world.forest, sim.view world.tally⟩ =
      (node.eval first (first.invoke bound) scope world).map fun found =>
        (found.1, ⟨found.2.forest, sim.view found.2.tally⟩) := by
  have follows : (node.recast sim.change).line = sim.change.line node.line := by
    rw [keep, node.recast_keep]
    rfl
  have seen (world : World First) : sim.world world = ⟨world.forest, sim.view world.tally⟩ := by
    rw [Simulation.world, keep, world.forest.recast_keep]
  have same (value : Value) : sim.value value = value := by
    rw [Simulation.value, keep, value.recast_keep]
  have mirrors := Simulation.node (sim.invoke bound) scope follows world
  rw [keep, node.recast_keep, seen] at mirrors
  rw [mirrors]
  cases node.eval first (first.invoke bound) scope world with
  | none => rfl
  | some found => simp only [Option.map_some, Prod.map, same, seen]

/-- Counting changes nothing about an evaluation. -/
theorem Limits.evaluate_eq_account (limits : Limits) (host : Host) (fallback : Nat) (node : Node)
    (scope : ScopeId) (forest : Forest) :
    limits.evaluate host fallback node scope forest =
      (limits.account host fallback node scope forest).map fun account =>
        (account.1, account.2.1) := by
  have uncounted := (Simulation.uncounted ⟨limits.meter, host⟩).node_keep rfl
    (limits.nesting fallback) node scope ⟨forest, limits.budget, 0⟩
  unfold Limits.evaluate Limits.account
  dsimp only [Simulation.uncounted] at uncounted ⊢
  rw [uncounted]
  cases node.eval (Machine.counted ⟨limits.meter, host⟩)
      ((Machine.counted ⟨limits.meter, host⟩).invoke (limits.nesting fallback)) scope
      ⟨forest, limits.budget, 0⟩ with
  | none => rfl
  | some found => rfl

end Lengua
