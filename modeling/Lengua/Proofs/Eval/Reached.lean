import Lengua.Proofs.Eval.Discipline
import Lengua.Proofs.Eval.Ledger

/-!
# Everything that happens is reached

The meter is told of every node that is visited and of every call that is entered. Each of these
belongs to a task that the evaluation comes to: a property of tallies that all of them keep when
the meter is told of them holds at the end. To keep it is a discipline. In particular every entry of
a ledger is that of such a task, so nothing happens in an evaluation outside of its tasks.
-/

namespace Lengua

variable {Tally : Type} {machine : Machine Tally} {holds : Tally → Prop}

namespace Task

/-- A property of tallies that a task keeps when the meter is told of it. -/
structure Keeps (machine : Machine Tally) (holds : Tally → Prop) (task : Task)
    (world : World Tally) : Prop where
  /-- Its node is visited. -/
  visit : ∀ {line tally}, task.line? = some line → holds world.tally →
    machine.meter.visit line world.forest world.tally = some tally → holds tally
  /-- It is a call that is entered. -/
  enter : ∀ {callee args line tally}, task = .call callee args line → holds world.tally →
    machine.meter.enter line world.tally = some tally → holds tally

/-- All that a task comes to keep a property of tallies. -/
def AllKeep (machine : Machine Tally) (holds : Tally → Prop) (task : Task) (world : World Tally) :
    Prop :=
  ∀ inner there, Reaches machine (fun _ => True) task world inner there →
    inner.Keeps machine holds there

/-- All that a started task comes to. -/
theorem AllKeep.start {outer inner : Task} {around world : World Tally}
    (all : outer.AllKeep machine holds around) (starts : Starts machine outer around inner world) :
    inner.AllKeep machine holds world :=
  fun task there reaches => all task there (.step trivial starts reaches)

end Task

/-- Evaluations keep a property of tallies if all that they come to keep it, and the ends of calls
keep it. -/
def Task.AllKeep.discipline (leave : ∀ tally, holds tally → holds (machine.meter.leave tally)) :
    Discipline machine where
  may task world := task.AllKeep machine holds world
  becomes world after := holds world.tally → holds after.tally
  fine _ _ := True
  refl _ := id
  trans first second := second ∘ first
  mono _ := id
  visit all onLine visits held := by
    obtain ⟨tally, passed, rfl⟩ := visits
    exact (all _ _ .here).visit onLine held passed
  starts all started _ _ := all.start started
  enter all started held := by
    cases started with
    | body _ entered => exact (all _ _ .here).enter rfl held entered
  leave became := leave _ ∘ became
  bind _ _ _ _ _ := id
  null _ := trivial
  given _ _ _ := trivial
  bound _ _ := trivial
  builtin _ _ := trivial
  procedure _ := trivial
  returned _ _ := trivial
  unwrapped _ := trivial
  answer _ := trivial

/-- Every entry of a ledger is that of a task which an evaluation comes to. -/
structure Ledger.Reached (machine : Machine (Tally × Ledger Tally)) (task : Task)
    (world : World (Tally × Ledger Tally)) (ledger : Ledger Tally) : Prop where
  /-- A visit is that of a node. -/
  visits : ∀ visit ∈ ledger.visits, ∃ inner there,
    Task.Reaches machine (fun _ => True) task world inner there ∧
      inner.line? = some visit.line ∧ there.forest = visit.forest
  /-- A call is that of a value. -/
  calls : ∀ call ∈ ledger.calls, ∃ callee args there,
    Task.Reaches machine (fun _ => True) task world (.call callee args call.line) there

/-- The ledger of a run has no entry but those of the tasks to which the run comes. -/
theorem Task.ledger_reached {bound : Nat} {task : Task} {world after : World (Tally × Ledger Tally)}
    {value : Value}
    (ran : task.run machine.recorded (machine.recorded.invoke bound) world = some (value, after))
    (started : world.tally.2 = .empty) :
    after.tally.2.Reached machine.recorded task world := by
  -- The task that the meter is told of is reached itself, so the new entry is one of those allowed.
  let holds (tally : Tally × Ledger Tally) : Prop := tally.2.Reached machine.recorded task world
  have begun : holds world.tally := by
    change world.tally.2.Reached machine.recorded task world
    rw [started]
    exact ⟨List.forall_mem_nil _, List.forall_mem_nil _⟩
  have leave (tally : Tally × Ledger Tally) (held : holds tally) :
      holds (machine.recorded.meter.leave tally) := ⟨held.visits, held.calls⟩
  have all : task.AllKeep machine.recorded holds world := by
    intro inner there reaches
    constructor
    · intro line tally onLine held passed
      obtain ⟨next, -, rfl⟩ := Meter.recorded_visit_eq_some_iff.mp passed
      refine ⟨fun visit mem => ?_, held.calls⟩
      rcases List.mem_append.mp mem with old | new
      · exact held.visits visit old
      · rw [List.mem_singleton.mp new]
        exact ⟨inner, there, reaches, onLine, rfl⟩
    · rintro callee args line tally rfl held entered
      obtain ⟨next, -, rfl⟩ := Meter.recorded_enter_eq_some_iff.mp entered
      refine ⟨held.visits, fun call mem => ?_⟩
      rcases List.mem_append.mp mem with old | new
      · exact held.calls call old
      · rw [List.mem_singleton.mp new]
        exact ⟨callee, args, there, reaches⟩
  exact ((AllKeep.discipline leave).task all ran).1 begun

end Lengua
