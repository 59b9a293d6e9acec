import Lengua.Proofs.Eval.Account

/-!
# Keeping a ledger

An evaluation under limits together with everything its meter let pass: every visit with the
scopes as they were just before it, and every call with the number of calls then active. The
ledger is kept by a meter that asks another one first, so that the evaluation is the same with
it and without, and the calls it counts as active are counted apart from the limits.
-/

namespace Lengua

/-- A node about to be visited. -/
structure Visit where
  /-- The line of the node. -/
  line : Int
  /-- The scopes as they are. -/
  forest : Forest

/-- A call that has been entered. -/
structure Call (Tally : Type) where
  /-- The line of the call. -/
  line : Int
  /-- How many calls are active, this one included. -/
  level : Nat
  /-- What the meter remembers once it has let the call pass. -/
  tally : Tally

/-- What has passed in a run. -/
structure Ledger (Tally : Type) where
  /-- The visits, the first first. -/
  visits : List Visit
  /-- The calls, the first first. -/
  calls : List (Call Tally)
  /-- How many calls are active. -/
  active : Nat

namespace Ledger

variable {Tally : Type}

/-- The ledger of a run that has not begun. -/
def empty : Ledger Tally := ⟨[], [], 0⟩

/-- Enters a visit. -/
def visit (ledger : Ledger Tally) (line : Int) (forest : Forest) : Ledger Tally :=
  { ledger with visits := ledger.visits ++ [⟨line, forest⟩] }

/-- Enters a call, which is then active. -/
def enter (ledger : Ledger Tally) (line : Int) (tally : Tally) : Ledger Tally :=
  { ledger with
    calls := ledger.calls ++ [⟨line, ledger.active + 1, tally⟩]
    active := ledger.active + 1 }

/-- Takes note of the end of a call. -/
def leave (ledger : Ledger Tally) : Ledger Tally := { ledger with active := ledger.active - 1 }

/-- The largest number of calls that were active at once. -/
def deepest (ledger : Ledger Tally) : Nat := (ledger.calls.map Call.level).foldr max 0

/-- No more calls were active at once than with each of them. -/
theorem deepest_le_iff {ledger : Ledger Tally} {depth : Nat} :
    ledger.deepest ≤ depth ↔ ∀ call ∈ ledger.calls, call.level ≤ depth := by
  unfold deepest
  induction ledger.calls with
  | nil => simp
  | cons call rest ih =>
    rw [List.map_cons, List.foldr_cons, Nat.max_le, ih, List.forall_mem_cons]

end Ledger

/-- A meter that also keeps a ledger of what another one lets pass. -/
def Meter.recorded {Tally : Type} (meter : Meter Tally) : Meter (Tally × Ledger Tally) where
  visit line forest tally :=
    (meter.visit line forest tally.1).map fun next => (next, tally.2.visit line forest)
  enter line tally :=
    (meter.enter line tally.1).map fun next => (next, tally.2.enter line next)
  leave tally := (meter.leave tally.1, tally.2.leave)

namespace Meter

variable {Tally : Type} {meter : Meter Tally} {line : Int} {before after : Tally × Ledger Tally}

/-- A visit that passes is in the ledger. -/
theorem recorded_visit_eq_some_iff {forest : Forest} :
    meter.recorded.visit line forest before = some after ↔
      ∃ next, meter.visit line forest before.1 = some next ∧
        after = (next, before.2.visit line forest) := by
  rw [recorded, Option.map_eq_some_iff]
  simp only [eq_comm]

/-- A call that passes is in the ledger. -/
theorem recorded_enter_eq_some_iff : meter.recorded.enter line before = some after ↔
    ∃ next, meter.enter line before.1 = some next ∧
      after = (next, before.2.enter line next) := by
  rw [recorded, Option.map_eq_some_iff]
  simp only [eq_comm]

end Meter

/-- A machine that also keeps a ledger. -/
def Machine.recorded {Tally : Type} (machine : Machine Tally) :
    Machine (Tally × Ledger Tally) :=
  { machine with meter := machine.meter.recorded }

/-- A machine that keeps a ledger has the same host. -/
theorem Machine.recorded_host {Tally : Type} (machine : Machine Tally) :
    machine.recorded.host = machine.host := rfl

/-- If everything is kept, words stay on their lines. -/
theorem Recast.line_keep_word (kind : Kind) (token : Token) :
    (Recast.keep.word kind token).line = Recast.keep.line token.line := rfl

/-- If everything is kept, other tokens stay on their lines. -/
theorem Recast.line_keep_other (token : Token) :
    (Recast.keep.other token).line = Recast.keep.line token.line := rfl

namespace Simulation

/-- A view of the tally that the meters of two machines with one host agree on. -/
def ofView {First Second : Type} {first : Machine First} {second : Machine Second}
    (view : First → Second) (host : first.host = second.host)
    (visit : ∀ line forest tally, second.meter.visit line forest (view tally) =
      (first.meter.visit line forest tally).map view)
    (enter : ∀ line tally, second.meter.enter line (view tally) =
      (first.meter.enter line tally).map view)
    (leave : ∀ tally, second.meter.leave (view tally) = view (first.meter.leave tally)) :
    Simulation first second where
  change := .keep
  view := view
  word_line := Recast.line_keep_word
  other_line := Recast.line_keep_other
  visit line forest tally := by
    rw [forest.recast_keep]
    exact visit line forest tally
  enter := enter
  leave := leave
  find name := by rw [host]
  answer name args line := by
    have kept : Value.recast .keep = id := funext Value.recast_keep
    rw [kept, List.map_id, host]
    rfl

variable {Tally : Type} (machine : Machine Tally)

/-- Leaving the ledger out. -/
def unrecorded : Simulation machine.recorded machine :=
  .ofView Prod.fst machine.recorded_host
    (fun line forest tally => by
      simp [Machine.recorded, Meter.recorded, Function.comp_def])
    (fun line tally => by simp [Machine.recorded, Meter.recorded, Function.comp_def])
    fun _ => rfl

/-- Keeping no more of the ledger than the number of visits. -/
def counting : Simulation machine.recorded machine.counted :=
  .ofView (fun tally => (tally.1, tally.2.visits.length)) machine.recorded_host
    (fun line forest tally => by
      simp [Machine.recorded, Meter.recorded, Machine.counted, Meter.counted, Ledger.visit,
        Function.comp_def])
    (fun line tally => by
      simp [Machine.recorded, Meter.recorded, Machine.counted, Meter.counted, Ledger.enter,
        Function.comp_def])
    fun _ => rfl

end Simulation

namespace Limits

/-- The outcome of an evaluation under limits, with its ledger. -/
def history (limits : Limits) (host : Host) (fallback : Nat) (node : Node) (scope : ScopeId)
    (forest : Forest) : Option (Value × Forest × Ledger Budget) :=
  let machine := Machine.recorded ⟨limits.meter, host⟩
  match node.eval machine (machine.invoke (limits.nesting fallback)) scope
      ⟨forest, limits.budget, .empty⟩ with
  | none => none
  | some (value, world) => some (value, world.forest, world.tally.2)

variable (limits : Limits) (host : Host) (fallback : Nat) (node : Node) (scope : ScopeId)
  (forest : Forest)

/-- The run behind a history. -/
theorem history_eq_some_iff {value : Value} {after : Forest} {ledger : Ledger Budget} :
    limits.history host fallback node scope forest = some (value, after, ledger) ↔
      ∃ budget, node.eval (Machine.recorded ⟨limits.meter, host⟩)
        (Machine.invoke (.recorded ⟨limits.meter, host⟩) (limits.nesting fallback)) scope
        ⟨forest, limits.budget, .empty⟩ = some (value, ⟨after, budget, ledger⟩) := by
  unfold Limits.history
  dsimp only
  cases node.eval (Machine.recorded ⟨limits.meter, host⟩)
      (Machine.invoke (.recorded ⟨limits.meter, host⟩) (limits.nesting fallback)) scope
      ⟨forest, limits.budget, .empty⟩ with
  | none => simp
  | some found =>
    obtain ⟨result, last, budget, kept⟩ := found
    simp

/-- Keeping a ledger changes nothing about an evaluation. -/
theorem evaluate_eq_history : limits.evaluate host fallback node scope forest =
    (limits.history host fallback node scope forest).map fun found => (found.1, found.2.1) := by
  have unrecorded := (Simulation.unrecorded ⟨limits.meter, host⟩).node_keep rfl
    (limits.nesting fallback) node scope ⟨forest, limits.budget, .empty⟩
  unfold Limits.evaluate Limits.history
  dsimp only [Simulation.unrecorded, Simulation.ofView] at unrecorded ⊢
  rw [unrecorded]
  cases node.eval (Machine.recorded ⟨limits.meter, host⟩)
      ((Machine.recorded ⟨limits.meter, host⟩).invoke (limits.nesting fallback)) scope
      ⟨forest, limits.budget, .empty⟩ with
  | none => rfl
  | some found => rfl

/-- The ledger has as many visits as are counted. -/
theorem visits_eq_history : limits.visits host fallback node scope forest =
    (limits.history host fallback node scope forest).map fun found =>
      found.2.2.visits.length := by
  have counting := (Simulation.counting ⟨limits.meter, host⟩).node_keep rfl
    (limits.nesting fallback) node scope ⟨forest, limits.budget, .empty⟩
  unfold Limits.visits Limits.account Limits.history
  dsimp only [Simulation.counting, Simulation.ofView, Ledger.empty, List.length_nil] at counting ⊢
  rw [counting]
  cases node.eval (Machine.recorded ⟨limits.meter, host⟩)
      ((Machine.recorded ⟨limits.meter, host⟩).invoke (limits.nesting fallback)) scope
      ⟨forest, limits.budget, ⟨[], [], 0⟩⟩ with
  | none => rfl
  | some found => rfl

end Limits

end Lengua
