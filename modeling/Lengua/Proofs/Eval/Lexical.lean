import Lengua.Proofs.Eval.Ledger
import Lengua.Proofs.Eval.Tracking
import Lengua.Tree.Reader

/-!
# Lexical scoping

An evaluation looks at no scopes but those it can reach: from its own scope outward, and from the
procedures bound on the way into theirs. Two forests that agree on these, whatever they hold
elsewhere, give the same outcome, the same visits and the same calls, and agree again afterwards.
A call looks only at what the callee and its arguments reach, and so not at what its caller has
bound. A host can bring in scopes of its own, which then count as reached.
-/

namespace Lengua

/-! ## What can be reached -/

namespace Forest

/-- The scopes that some scopes lead to, in any number of steps. -/
inductive Reachable (forest : Forest) (roots : ScopeId → Prop) : ScopeId → Prop where
  /-- The scopes to start from. -/
  | root {id : ScopeId} (isRoot : roots id) : Reachable forest roots id
  /-- One step further. -/
  | step {id next : ScopeId} {scope : Scope} (before : Reachable forest roots id)
    (found : forest.scopes[id]? = some scope) (leads : scope.LeadsTo next) :
    Reachable forest roots next

/-- Two forests with the same scopes that hold the same wherever some scopes lead to. -/
structure AgreesFrom (roots : ScopeId → Prop) (first second : Forest) : Prop where
  /-- There are equally many scopes. -/
  size : second.scopes.size = first.scopes.size
  /-- Those that can be reached are the same. -/
  scope : ∀ {id}, first.Reachable roots id → second.scopes[id]? = first.scopes[id]?

variable {first second : Forest}

/-- Forests that agree correspond in the scopes that can be reached. -/
theorem AgreesFrom.carried {roots : ScopeId → Prop} (agree : first.AgreesFrom roots second) :
    first.Carried .still (first.Reachable roots) second where
  base := Nat.zero_le _
  size := agree.size
  scope {id} there := by
    rw [Shift.scope_moved_still, Option.map_id_apply, Shift.place_still]
    exact agree.scope there
  leads there found leads := .step there found leads

/-- Forests that correspond in a known part agree on what can be reached from there. -/
theorem Carried.agreesFrom {known roots : ScopeId → Prop}
    (carried : first.Carried .still known second) (inside : ∀ id, roots id → known id) :
    first.AgreesFrom roots second where
  size := carried.size
  scope {id} there := by
    have known_of_reachable : known id := by
      induction there with
      | root isRoot => exact inside _ isRoot
      | step before found leads ih => exact carried.leads ih found leads
    have same := carried.scope known_of_reachable
    rwa [Shift.scope_moved_still, Option.map_id_apply, Shift.place_still] at same

end Forest

namespace Host

/-- A host holds the scopes that its functions answer with though no argument leads there. -/
def Holds (host : Host) (id : ScopeId) : Prop :=
  ∃ name args line, (host.answer (.host name) args line).home? = some id ∧
    ∀ arg ∈ args, arg.home? ≠ some id

/-- A host without functions holds no scope. -/
theorem not_holds_empty (id : ScopeId) : ¬ Host.empty.Holds id := by
  rintro ⟨name, args, line, home, -⟩
  cases home

/-- An answer leads to a scope that the host holds, or to one that an argument leads to. -/
theorem holds_or_mem {host : Host} {name : Text} {args : List Value} {line : Int} {id : ScopeId}
    (home : (host.answer (.host name) args line).home? = some id) :
    host.Holds id ∨ ∃ arg ∈ args, arg.home? = some id := by
  by_cases given : ∃ arg ∈ args, arg.home? = some id
  · exact .inr given
  · exact .inl ⟨name, args, line, home, fun arg mem same => given ⟨arg, mem, same⟩⟩

end Host

/-! ## What is the same -/

/-- Ledgers of runs that did the same, maybe in different forests. -/
structure Ledger.Alike {Tally : Type} (ledger other : Ledger Tally) : Prop where
  /-- The same lines were visited, in the same order. -/
  lines : other.visits.map Visit.line = ledger.visits.map Visit.line
  /-- The same calls were entered. -/
  calls : other.calls = ledger.calls
  /-- Equally many calls are active. -/
  active : other.active = ledger.active

namespace Ledger.Alike

variable {Tally : Type} {ledger other : Ledger Tally}

/-- A ledger is like itself. -/
theorem refl (ledger : Ledger Tally) : ledger.Alike ledger := ⟨rfl, rfl, rfl⟩

/-- The same line is visited. -/
theorem visit (alike : ledger.Alike other) (line : Int) (forest forest' : Forest) :
    (ledger.visit line forest).Alike (other.visit line forest') where
  lines := by simp only [Ledger.visit, List.map_append, alike.lines, List.map_cons, List.map_nil]
  calls := alike.calls
  active := alike.active

/-- The same call is entered. -/
theorem enter (alike : ledger.Alike other) (line : Int) (tally : Tally) :
    (ledger.enter line tally).Alike (other.enter line tally) where
  lines := alike.lines
  calls := by simp only [Ledger.enter, alike.calls, alike.active]
  active := congrArg (· + 1) alike.active

/-- A call ends. -/
theorem leave (alike : ledger.Alike other) : ledger.leave.Alike other.leave where
  lines := alike.lines
  calls := alike.calls
  active := congrArg (· - 1) alike.active

end Ledger.Alike

namespace Tracking

/-- A machine beside itself, in forests that may differ out of its reach. -/
def lexical (limits : Limits) (host : Host) :
    Tracking (Machine.recorded ⟨limits.meter, host⟩) (Machine.recorded ⟨limits.meter, host⟩) where
  shift := .still
  agrees tally other := other.1 = tally.1 ∧ tally.2.Alike other.2
  visit {tally other} agree line forest forest' := by
    obtain ⟨budget, ledger⟩ := tally
    obtain ⟨budget', ledger'⟩ := other
    obtain ⟨rfl, alike⟩ := agree
    -- The meter of limits does not look at the scopes.
    change Option.Rel _ ((limits.meter.visit line forest _).map _)
      ((limits.meter.visit line forest _).map _)
    cases limits.meter.visit line forest _ with
    | none => exact .none
    | some next => exact .some ⟨rfl, alike.visit line forest forest'⟩
  enter {tally other} agree line := by
    obtain ⟨budget, ledger⟩ := tally
    obtain ⟨budget', ledger'⟩ := other
    obtain ⟨rfl, alike⟩ := agree
    change Option.Rel _ ((limits.meter.enter line _).map _) ((limits.meter.enter line _).map _)
    cases limits.meter.enter line _ with
    | none => exact .none
    | some next => exact .some ⟨rfl, alike.enter line next⟩
  leave agree := ⟨congrArg limits.meter.leave agree.1, agree.2.leave⟩
  find _ := rfl
  answer name args line := by
    rw [Shift.value_moved_still, List.map_id]
    rfl
  held := host.Holds
  discreet _ _ _ _ home := Host.holds_or_mem home

end Tracking

/-- Outcomes of two steps that did the same: equal values, equal budgets, like ledgers, and forests
that agree on what can be reached from some scopes and from the value. -/
structure SameOutcome (roots : ScopeId → Prop)
    (one other : Value × World (Budget × Ledger Budget)) : Prop where
  /-- The values are equal. -/
  value : other.1 = one.1
  /-- Equally much is left. -/
  budget : other.2.tally.1 = one.2.tally.1
  /-- The same was visited and called. -/
  ledger : one.2.tally.2.Alike other.2.tally.2
  /-- The forests agree. -/
  forest : one.2.forest.AgreesFrom (fun id => roots id ∨ one.1.home? = some id) other.2.forest

/-- A step that tracks itself from what can be reached has the same outcome in forests that agree
there. -/
theorem Tracking.Tracks.sameOutcome {limits : Limits} {host : Host} {roots : ScopeId → Prop}
    {first second : Forest} {run run' : Run (Budget × Ledger Budget) Value}
    (tracks : (lexical limits host).Tracks .value (first.Reachable roots) run run')
    (held : ∀ id, host.Holds id → roots id) (agree : first.AgreesFrom roots second)
    (tally : Budget × Ledger Budget) :
    Option.Rel (SameOutcome roots) (run ⟨first, tally⟩) (run' ⟨second, tally⟩) := by
  have worlds : (lexical limits host).Worlds (first.Reachable roots) ⟨first, tally⟩
      ⟨second, tally⟩ := ⟨agree.carried, fun id there => .root (held id there), rfl, .refl tally.2⟩
  have ended := tracks (first.Reachable roots) (fun _ => id) ⟨first, tally⟩ ⟨second, tally⟩ worlds
  generalize run ⟨first, tally⟩ = found at ended ⊢
  generalize run' ⟨second, tally⟩ = found' at ended ⊢
  cases ended with
  | neither => exact .none
  | both value after after' last opens worlds leads =>
    have inside (id : ScopeId) (root : roots id ∨ value.home? = some id) : last id :=
      root.elim (fun isRoot => opens.keeps id (.root isRoot)) (leads id)
    refine .some ⟨?_, worlds.agree.1, worlds.agree.2, worlds.carried.agreesFrom inside⟩
    change value.moved Shift.still.place = value
    rw [Shift.value_moved_still, id_eq]

/-- A node has the same outcome in forests that agree on what can be reached from its scope. -/
theorem Node.eval_lexical (limits : Limits) (host : Host) (bound : Nat) (node : Node)
    {scope : ScopeId} {first second : Forest}
    (agree : first.AgreesFrom (fun id => id = scope ∨ host.Holds id) second)
    (tally : Budget × Ledger Budget) :
    Option.Rel (SameOutcome fun id => id = scope ∨ host.Holds id)
      (node.eval (.recorded ⟨limits.meter, host⟩)
        (Machine.invoke (.recorded ⟨limits.meter, host⟩) bound) scope ⟨first, tally⟩)
      (node.eval (.recorded ⟨limits.meter, host⟩)
        (Machine.invoke (.recorded ⟨limits.meter, host⟩) bound) scope ⟨second, tally⟩) := by
  let track := Tracking.lexical limits host
  have tracks : track.Tracks .value (first.Reachable fun id => id = scope ∨ host.Holds id)
      (node.eval _ _ scope) _ := Tracking.node (track.invoke bound) (.root (.inl rfl)) node
  rw [show track.shift.place = id from Shift.place_still] at tracks
  exact tracks.sameOutcome (fun _ => .inr) agree tally

/-- A call has the same outcome in forests that agree on what can be reached from the callee and
its arguments. -/
theorem Machine.apply_lexical (limits : Limits) (host : Host) (bound : Nat) {callee : Value}
    {args : List Value} (line : Int) {roots : ScopeId → Prop} {first second : Forest}
    (around : ∀ value ∈ callee :: args, ∀ id, value.home? = some id → roots id)
    (held : ∀ id, host.Holds id → roots id) (agree : first.AgreesFrom roots second)
    (tally : Budget × Ledger Budget) :
    Option.Rel (SameOutcome roots)
      (Machine.apply (.recorded ⟨limits.meter, host⟩)
        (Machine.invoke (.recorded ⟨limits.meter, host⟩) bound) callee args line ⟨first, tally⟩)
      (Machine.apply (.recorded ⟨limits.meter, host⟩)
        (Machine.invoke (.recorded ⟨limits.meter, host⟩) bound) callee args line
        ⟨second, tally⟩) := by
  let track := Tracking.lexical limits host
  obtain ⟨onCallee, onArgs⟩ := List.forall_mem_cons.mp around
  have tracks : track.Tracks .value (first.Reachable roots) _ _ :=
    .apply (track.invoke bound) (fun id home => .root (onCallee id home))
      (fun arg mem id home => .root (onArgs arg mem id home)) line
  rw [show Value.moved track.shift.place = id from Shift.value_moved_still, List.map_id] at tracks
  exact tracks.sameOutcome held agree tally

/-- In two forests that agree on what can be reached from a scope, a node has the same value there,
visits the same lines and makes the same calls, and the forests then agree on what can be reached
from the scope and from the value. In two forests that agree on what can be reached from a callee
and its arguments, a call has the same value and costs the same, whatever its caller has bound. -/
theorem Limits.history_lexical (limits : Limits) (host : Host) (first second : Forest) :
    (∀ fallback node scope,
      first.AgreesFrom (fun id => id = scope ∨ host.Holds id) second →
      Option.Rel
        (fun one other => other.1 = one.1 ∧
          one.2.1.AgreesFrom
            (fun id => (id = scope ∨ host.Holds id) ∨ one.1.home? = some id) other.2.1 ∧
          one.2.2.Alike other.2.2)
        (limits.history host fallback node scope first)
        (limits.history host fallback node scope second)) ∧
    ∀ bound callee args line tally,
      let roots (id : ScopeId) : Prop :=
        (∃ value ∈ callee :: args, value.home? = some id) ∨ host.Holds id
      let machine := Machine.recorded ⟨limits.meter, host⟩
      first.AgreesFrom roots second →
      Option.Rel (SameOutcome roots)
        (machine.apply (machine.invoke bound) callee args line ⟨first, tally⟩)
        (machine.apply (machine.invoke bound) callee args line ⟨second, tally⟩) := by
  constructor
  · intro fallback node scope agree
    have same := node.eval_lexical limits host (limits.nesting fallback) agree
      (limits.budget, .empty)
    unfold Limits.history
    dsimp only
    generalize node.eval _ _ scope ⟨first, _⟩ = found at same ⊢
    generalize node.eval _ _ scope ⟨second, _⟩ = found' at same ⊢
    cases same with
    | none => exact .none
    | some same => exact .some ⟨same.value, same.forest, same.ledger⟩
  · intro bound callee args line tally roots machine agree
    exact Machine.apply_lexical limits host bound line
      (fun value mem id home => .inl ⟨value, mem, home⟩) (fun id there => .inr there) agree tally

/-- A scope inside the first one binds a name of that one again, in two ways. Neither a program in
the first scope nor a procedure from there that is called with the inner scope around notices. -/
theorem Limits.history_lexical_shadowing :
    let outer := ((Forest.single.set 0 (utf8 "x") (.int 1)).add (some 0)).2
    let first := outer.set 1 (utf8 "x") (.int 2)
    let second := outer.set 1 (utf8 "x") (.int 3)
    let node := Node.program (Program.ofText
      (utf8 "f = procedimiento() \x7b x \x7d; f() + x")).program
    let body := Block.braces ⟨.leftBrace, utf8 "\x7b", 1⟩
      [.expr ⟨.ident, utf8 "x", 1⟩ (.ident ⟨⟨.ident, utf8 "x", 1⟩, utf8 "x"⟩)]
    let machine := Machine.recorded ⟨Limits.default.meter, .empty⟩
    (∃ value after after' ledger ledger', value.inspect = utf8 "2" ∧
      Limits.default.history .empty 0 node 0 first = some (value, after, ledger) ∧
      Limits.default.history .empty 0 node 0 second = some (value, after', ledger') ∧
      ledger'.visits.map Visit.line = ledger.visits.map Visit.line) ∧
    ∃ value after after', value.inspect = utf8 "1" ∧
      machine.apply (machine.invoke 1) (.procedure [] body (some 0)) [] 7
        ⟨first, Limits.default.budget, .empty⟩ = some (value, after) ∧
      machine.apply (machine.invoke 1) (.procedure [] body (some 0)) [] 7
        ⟨second, Limits.default.budget, .empty⟩ = some (value, after') := by
  intro outer first second node body machine
  have atZero : first.scopes[0]? = some ⟨[(utf8 "x", .int 1)], none⟩ := rfl
  -- The first scope leads nowhere.
  have alone {roots : ScopeId → Prop} (only : ∀ id, roots id → id = 0) (id : ScopeId)
      (there : first.Reachable roots id) : id = 0 := by
    induction there with
    | root isRoot => exact only _ isRoot
    | @step before next scope reached found leads ih =>
      subst ih
      rw [atZero] at found
      cases found
      rcases leads with around | ⟨binding, mem, home⟩
      · cases around
      · rw [List.mem_singleton] at mem
        rw [mem] at home
        cases home
  have agree {roots : ScopeId → Prop} (only : ∀ id, roots id → id = 0) :
      first.AgreesFrom roots second := by
    refine ⟨rfl, fun {id} there => ?_⟩
    rw [alone only id there]
    rfl
  obtain ⟨nodes, calls⟩ := history_lexical .default .empty first second
  constructor
  · have shown : (Limits.default.history .empty 0 node 0 first).map (·.1.inspect) =
        some (utf8 "2") := by decide +kernel
    obtain ⟨⟨value, after, ledger⟩, ended, two⟩ := Option.map_eq_some_iff.mp shown
    have same := nodes 0 node 0 (agree fun id => (·.resolve_right (Host.not_holds_empty id)))
    rw [ended] at same
    generalize Limits.default.history .empty 0 node 0 second = found at same ⊢
    cases same with
    | @some _ found same =>
      obtain ⟨value', after', ledger'⟩ := found
      obtain ⟨rfl, -, alike⟩ := same
      exact ⟨_, after, after', ledger, ledger', two, ended, rfl, alike.lines⟩
  · have shown : (machine.apply (machine.invoke 1) (.procedure [] body (some 0)) [] 7
        ⟨first, Limits.default.budget, .empty⟩).map (·.1.inspect) = some (utf8 "1") := by
      decide +kernel
    obtain ⟨⟨value, after⟩, ended, one⟩ := Option.map_eq_some_iff.mp shown
    have same := calls 1 (.procedure [] body (some 0)) [] 7 (Limits.default.budget, .empty)
      (agree fun id root => by
        rcases root with ⟨value, mem, home⟩ | held
        · rw [List.mem_singleton] at mem
          rw [mem] at home
          exact (Option.some.inj home).symm
        · exact absurd held (Host.not_holds_empty id))
    change Option.Rel _ (machine.apply _ _ _ _ _) (machine.apply _ _ _ _ _) at same
    rw [ended] at same
    generalize machine.apply (machine.invoke 1) (.procedure [] body (some 0)) [] 7
      ⟨second, Limits.default.budget, .empty⟩ = found at same ⊢
    cases same with
    | @some _ found same =>
      obtain ⟨value', after'⟩ := found
      obtain ⟨rfl, -, -, -⟩ := same
      exact ⟨_, after, after', one, ended, rfl⟩

end Lengua
