import Lengua.Proofs.Eval.Frame
import Lengua.Proofs.Eval.Tracking

/-!
# Procedures are pure

A call binds nothing in the scopes it finds, so when it is made again right after it has ended, it
finds them as they were. The second run opens its scopes above those of the first and otherwise
does the same: it ends in the same value, up to the numbers of the scopes that the two runs have
opened.

This needs scopes that lead to existing ones, or else the first run could open one that an old
scope already mentions. Evaluations keep it so.
-/

namespace Lengua

/-! ## Scopes that lead to existing ones -/

/-- Every scope leads to existing scopes only. -/
def Forest.Closed (forest : Forest) : Prop :=
  ∀ (id : ScopeId) (scope : Scope), forest.scopes[id]? = some scope →
    ∀ next, scope.LeadsTo next → next < forest.scopes.size

namespace Forest.Closed

variable {forest : Forest}

/-- The forest of a new run is closed. -/
theorem single : Forest.single.Closed := by
  intro id scope found next leads
  rw [Forest.single, List.getElem?_toArray, List.getElem?_singleton] at found
  split at found
  · cases found
    rcases leads with around | ⟨binding, mem, -⟩
    · cases around
    · cases mem
  · cases found

/-- If a later forest still has the scopes of a closed one, they correspond, with room for the
scopes opened since. -/
theorem carried (closed : forest.Closed) {later : Forest}
    (le : forest.scopes.size ≤ later.scopes.size)
    (kept : ∀ id < forest.scopes.size, later.scopes[id]? = forest.scopes[id]?) :
    forest.Carried ⟨forest.scopes.size, later.scopes.size - forest.scopes.size⟩
      (· < forest.scopes.size) later where
  base := Nat.le_refl _
  size := (Nat.add_sub_cancel' le).symm
  scope {id} below := by
    rw [Shift.place_of_lt _ below, kept id below]
    cases found : forest.scopes[id]? with
    | none => rfl
    | some scope =>
      rw [Option.map_some, Scope.moved_eq_self]
      exact fun next leads => Shift.place_of_lt _ (closed id scope found next leads)
  leads {id next scope} _ found leads := closed id scope found next leads

end Forest.Closed

/-- If all scopes were known, all of them are. -/
theorem Opens.lt_iff {later : ScopeId → Prop} {size laterSize : Nat}
    (opens : Opens (· < size) size later laterSize) (id : ScopeId) : later id ↔ id < laterSize := by
  have le := opens.le
  rw [opens.known_iff]
  constructor
  · rintro (old | ⟨-, new⟩)
    · exact Nat.lt_of_lt_of_le old le
    · exact new
  · intro below
    exact (Nat.lt_or_ge id size).imp_right fun above => ⟨above, below⟩

/-- A machine without functions of the host beside itself, with scopes under other numbers. -/
def Tracking.shifted (limits : Limits) (shift : Shift) :
    Tracking ⟨limits.meter, .empty⟩ ⟨limits.meter, .empty⟩ where
  shift := shift
  agrees tally other := other = tally
  visit {tally other} same line forest forest' := by
    subst same
    change Option.Rel _ (limits.meter.visit line forest other)
      (limits.meter.visit line forest other)
    cases limits.meter.visit line forest other with
    | none => exact .none
    | some next => exact .some rfl
  enter {tally other} same line := by
    subst same
    cases limits.meter.enter line other with
    | none => exact .none
    | some next => exact .some rfl
  leave same := congrArg limits.meter.leave same
  find _ := rfl
  answer _ _ _ := rfl
  held _ := False
  discreet _ _ _ _ home := by cases home

/-- Evaluations keep forests closed, and end in values with existing scopes. -/
theorem Limits.evaluate_closed {limits : Limits} {fallback : Nat} {node : Node} {scope : ScopeId}
    {forest after : Forest} {value : Value} (closed : forest.Closed)
    (within : scope < forest.scopes.size)
    (ended : limits.evaluate .empty fallback node scope forest = some (value, after)) :
    after.Closed ∧ ∀ id, value.home? = some id → id < after.scopes.size := by
  obtain ⟨budget, ran⟩ := evaluate_eq_some_iff.mp ended
  have carried := closed.carried (Nat.le_refl _) fun _ _ => rfl
  let track := Tracking.shifted limits
    ⟨forest.scopes.size, forest.scopes.size - forest.scopes.size⟩
  let known (id : ScopeId) : Prop := id < forest.scopes.size
  have there : known scope := within
  have tracks := Tracking.node (track.invoke (limits.nesting fallback)) there node
  have both := tracks known (fun _ => id) ⟨forest, limits.budget⟩ ⟨forest, limits.budget⟩
    ⟨carried, fun _ impossible => impossible.elim, rfl⟩
  rw [ran] at both
  obtain ⟨after', last, -, opens, worlds, leads⟩ := both.ofSome
  constructor
  · intro id scope found next lead
    have there : id < after.scopes.size := (Array.getElem?_eq_some_iff.mp found).1
    exact (opens.lt_iff next).mp (worlds.carried.leads ((opens.lt_iff id).mpr there) found lead)
  · intro id home
    exact (opens.lt_iff id).mp (leads id home)

/-- A call without a bound on gas and without functions of the host has an outcome again when it is
made again right after it has ended. The second value is the first one, up to the numbers of the
scopes that the calls have opened: a procedure has the same parameters and the same body, and its
scope and all others hold the same, under the new numbers. A value that is no procedure is just the
same. -/
theorem Limits.apply_repeated (depth bound : Nat) {callee : Value} {args : List Value} (line : Int)
    {forest : Forest} {budget : Budget} {value : Value} {after : World Budget}
    (closed : forest.Closed)
    (within : ∀ found ∈ callee :: args, ∀ id, found.home? = some id → id < forest.scopes.size) :
    let machine : Machine Budget := ⟨(Limits.mk 0 depth).meter, .empty⟩
    let run := machine.apply (machine.invoke bound) callee args line
    run ⟨forest, budget⟩ = some (value, after) →
    let shift : Shift := ⟨forest.scopes.size, after.forest.scopes.size - forest.scopes.size⟩
    ∃ again last, run after = some (again, last) ∧ again = value.moved shift.place ∧
      (value.home? = none → again = value) ∧
      ∀ id < after.forest.scopes.size,
        last.forest.scopes[shift.place id]? =
          after.forest.scopes[id]?.map (Scope.moved shift.place) ∧
        ∀ name, last.forest.get? (shift.place id) name =
          (after.forest.get? id name).map (Value.moved shift.place) := by
  intro machine run ended shift
  -- The second run starts with the same budget, and the scopes it can reach are as they were.
  have moves : machine.meter.Moves fun before after => after = before := moves_budget rfl
  have unchanged : after.tally = budget :=
    Run.Moves.apply moves (moves.invoke bound) callee args line ⟨forest, budget⟩ value after ended
  have carried : forest.Carried shift (· < forest.scopes.size) after.forest :=
    closed.carried (Machine.apply_extends ended).size fun id => Machine.apply_getElem_eq ended
  let track := Tracking.shifted (.mk 0 depth) shift
  obtain ⟨onCallee, onArgs⟩ := List.forall_mem_cons.mp within
  have tracks : track.Tracks .value (· < forest.scopes.size) run
      (machine.apply (machine.invoke bound) (callee.moved shift.place)
        (args.map (Value.moved shift.place)) line) :=
    .apply (track.invoke bound) onCallee onArgs line
  -- What the call is given has old scopes, which keep their numbers.
  have kept (found : Value) (old : ∀ id, found.home? = some id → id < forest.scopes.size) :
      found.moved shift.place = found :=
    found.moved_eq_self _ fun id home => shift.place_of_lt (old id home)
  have keptArgs : args.map (Value.moved shift.place) = args :=
    (List.map_congr_left fun arg mem => kept arg (onArgs arg mem)).trans (List.map_id args)
  rw [kept callee onCallee, keptArgs] at tracks
  have both := tracks _ (fun _ => id) ⟨forest, budget⟩ after
    ⟨carried, fun _ impossible => impossible.elim, unchanged⟩
  rw [ended] at both
  obtain ⟨last, later, again, opens, worlds, -⟩ := both.ofSome
  refine ⟨_, last, again, rfl, Value.moved_of_home shift.place, fun id below => ?_⟩
  have known : later id := (opens.lt_iff id).mpr below
  exact ⟨worlds.carried.scope known, worlds.carried.get known⟩

/-- A procedure that makes procedures is called twice with the same argument. Each call opens a
scope of its own, and both of these bind the parameter to the argument. -/
theorem Limits.apply_repeated_maker :
    let node := Node.program (Program.ofText
      (utf8 "crear = procedimiento(n) \x7b procedimiento(m) \x7b n + m \x7d \x7d")).program
    let machine : Machine Budget := ⟨(Limits.mk 0 9).meter, .empty⟩
    ∃ callee forest value after again last argument,
      Limits.default.evaluate .empty 0 node 0 .single = some (callee, forest) ∧ forest.Closed ∧
      machine.apply (machine.invoke 1) callee [.int 5] 1 ⟨forest, ⟨0, 0⟩⟩ = some (value, after) ∧
      machine.apply (machine.invoke 1) callee [.int 5] 1 after = some (again, last) ∧
      value.home? = some 1 ∧ again = value.moved (Shift.mk 1 1).place ∧
      after.forest.get? 1 (utf8 "n") = some argument ∧
      last.forest.get? 2 (utf8 "n") = some argument ∧ argument.inspect = utf8 "5" := by
  intro node machine
  let run (made : Value × Forest) :=
    machine.apply (machine.invoke 1) made.1 [.int 5] 1 ⟨made.2, ⟨0, 0⟩⟩
  have traced : ((Limits.default.evaluate .empty 0 node 0 .single).bind fun made =>
      (run made).map fun called =>
        (made.2.scopes.size, called.2.forest.scopes.size, called.1.home?)) =
      some (1, 2, some 1) := by
    decide +kernel
  have tracedArgument : ((Limits.default.evaluate .empty 0 node 0 .single).bind fun made =>
      (run made).bind fun called => (called.2.forest.get? 1 (utf8 "n")).map fun bound =>
        (bound.home?, bound.inspect)) = some (none, utf8 "5") := by
    decide +kernel
  obtain ⟨⟨callee, forest⟩, made, called⟩ := Option.bind_eq_some_iff.mp traced
  obtain ⟨⟨value, after⟩, ended, facts⟩ := Option.map_eq_some_iff.mp called
  obtain ⟨one, two, home⟩ : forest.scopes.size = 1 ∧ after.forest.scopes.size = 2 ∧
      value.home? = some 1 := by
    simpa only [Prod.mk.injEq] using facts
  rw [made, Option.bind_some, ended, Option.bind_some] at tracedArgument
  obtain ⟨argument, got, facts⟩ := Option.map_eq_some_iff.mp tracedArgument
  obtain ⟨flat, shown⟩ := Prod.mk.inj facts
  obtain ⟨closed, inside⟩ := evaluate_closed Forest.Closed.single Nat.one_pos made
  have within : ∀ found ∈ [callee, .int 5], ∀ id, found.home? = some id →
      id < forest.scopes.size := by
    intro found mem
    rcases List.mem_cons.mp mem with rfl | argument
    · exact inside
    · rw [List.mem_singleton.mp argument]
      exact fun id none => nomatch none
  obtain ⟨again, last, repeated, same, -, scopes⟩ := apply_repeated 9 1 1 closed within ended
  rw [one, two] at same scopes
  have bound := (scopes 1 (by decide)).2 (utf8 "n")
  rw [got, Option.map_some, Value.moved_of_home _ flat] at bound
  exact ⟨callee, forest, value, after, again, last, argument, made, closed, ended, repeated, home,
    same, got, bound, shown⟩

end Lengua
