import Lengua.Proofs.Eval.Lockstep
import Lengua.Tree.Reader

/-!
# Evaluations that end

Procedures may call each other, so an evaluation need not follow the tree and need not end. A
meter makes it end if it gives every tally a rank that no evaluation raises and that is lower in
the body of a call than where the call is visited: then calls nest no deeper than the rank is
high. The limits give two such ranks. With a bound on active calls it is the number of calls
that may still be entered, which is lowered by entering one; with a bound on visits it is the
number of nodes that may still be visited, which is lowered by visiting the call itself.
-/

namespace Lengua

variable {Tally : Type}

/-- A rank of tallies that is lower in every body than at the call. -/
structure Meter.Descent (meter : Meter Tally) where
  /-- The rank of a tally. -/
  rank : Tally → Nat
  /-- A visit does not raise the rank. -/
  visit : ∀ {line forest before after}, meter.visit line forest before = some after →
    rank after ≤ rank before
  /-- When a call has been visited and what comes before it evaluated, entering it has lowered
  the rank. -/
  enter : ∀ {line forest before visited later entered},
    meter.visit line forest before = some visited → rank later ≤ rank visited →
    meter.enter line later = some entered → rank entered < rank before
  /-- A whole call does not raise the rank. -/
  leave : ∀ {line before entered ended}, meter.enter line before = some entered →
    rank ended ≤ rank entered → rank (meter.leave ended) ≤ rank before

/-- A step has an outcome at every tally below a rank, and does not raise the rank. -/
def Run.EndsBelow {Outcome : Type} (rank : Tally → Nat) (bound : Nat) (run : Run Tally Outcome) :
    Prop :=
  ∀ world, rank world.tally < bound → ∃ outcome after, run world = some (outcome, after) ∧
    rank after.tally ≤ rank world.tally

namespace Run.EndsBelow

variable {rank : Tally → Nat} {bound : Nat} {run : Run Tally Value}
  {rest : Run Tally (Except Value (List Value))}

/-- A step that ends below a rank ends below a lower one. -/
theorem weaken {Outcome : Type} {run : Run Tally Outcome} (ends : run.EndsBelow rank bound)
    {lower : Nat} (le : lower ≤ bound) : run.EndsBelow rank lower :=
  fun world low => ends world (Nat.lt_of_lt_of_le low le)

/-- Yielding an outcome. -/
theorem done {Outcome : Type} (outcome : Outcome) :
    (Run.done outcome : Run Tally Outcome).EndsBelow rank bound :=
  fun world _ => ⟨outcome, world, rfl, Nat.le_refl _⟩

/-- Going on unless there is a signal. -/
theorem unlessSignal {next : Value → Run Tally Value} (first : run.EndsBelow rank bound)
    (second : ∀ value, (next value).EndsBelow rank bound) :
    (run.unlessSignal next).EndsBelow rank bound := by
  intro world low
  obtain ⟨value, between, ranFirst, lowBetween⟩ := first world low
  cases signal : value.isSignal with
  | true =>
    exact ⟨value, between, unlessSignal_eq_some_iff.mpr
      ⟨value, between, ranFirst, .inl ⟨signal, rfl, rfl⟩⟩, lowBetween⟩
  | false =>
    obtain ⟨outcome, after, ranSecond, lowAfter⟩ := second value between (by omega)
    exact ⟨outcome, after, unlessSignal_eq_some_iff.mpr
      ⟨value, between, ranFirst, .inr ⟨signal, ranSecond⟩⟩, by omega⟩

/-- Going on unless the values ended in a signal. -/
theorem unlessStopped {next : List Value → Run Tally Value} (first : rest.EndsBelow rank bound)
    (second : ∀ values, (next values).EndsBelow rank bound) :
    (rest.unlessStopped next).EndsBelow rank bound := by
  intro world low
  obtain ⟨found, between, ranFirst, lowBetween⟩ := first world low
  cases found with
  | error signal =>
    exact ⟨signal, between, unlessStopped_eq_some_iff.mpr (.inl ranFirst), lowBetween⟩
  | ok values =>
    obtain ⟨outcome, after, ranSecond, lowAfter⟩ := second values between (by omega)
    exact ⟨outcome, after, unlessStopped_eq_some_iff.mpr
      (.inr ⟨values, between, ranFirst, ranSecond⟩), by omega⟩

/-- Putting a value before others. -/
theorem followedBy (first : run.EndsBelow rank bound) (second : rest.EndsBelow rank bound) :
    (run.followedBy rest).EndsBelow rank bound := by
  intro world low
  obtain ⟨value, between, ranFirst, lowBetween⟩ := first world low
  cases signal : value.isSignal with
  | true =>
    exact ⟨.error value, between, followedBy_eq_some_iff.mpr
      ⟨value, between, ranFirst, .inl ⟨signal, rfl, rfl⟩⟩, lowBetween⟩
  | false =>
    obtain ⟨others, after, ranSecond, lowAfter⟩ := second between (by omega)
    exact ⟨others.map (value :: ·), after, followedBy_eq_some_iff.mpr
      ⟨value, between, ranFirst, .inr ⟨signal, others, ranSecond, rfl⟩⟩, by omega⟩

/-- Leaving a procedure. -/
theorem unwrapped (inside : run.EndsBelow rank bound) : run.unwrapped.EndsBelow rank bound := by
  intro world low
  obtain ⟨value, after, ran, lowAfter⟩ := inside world low
  exact ⟨value.unwrapped, after, unwrapped_eq_some_iff.mpr ⟨value, ran, rfl⟩, lowAfter⟩

section

variable {machine : Machine Tally} (descent : machine.meter.Descent)

/-- Visiting a node, if what follows ends from the tally that the visit leaves. -/
theorem visit (line : Int)
    (inside : ∀ {forest before visited}, machine.meter.visit line forest before = some visited →
      descent.rank before < bound → run.EndsBelow descent.rank (descent.rank visited + 1)) :
    (machine.visit line run).EndsBelow descent.rank bound := by
  intro world low
  cases passed : machine.meter.visit line world.forest world.tally with
  | none =>
    exact ⟨_, world, Machine.visit_eq_some_iff.mpr (.inl ⟨passed, rfl, rfl⟩), Nat.le_refl _⟩
  | some tally =>
    have lowered := descent.visit passed
    obtain ⟨outcome, after, ran, lowAfter⟩ :=
      inside passed low { world with tally } (Nat.lt_succ_self _)
    have ranVisit := Machine.visit_eq_some_iff.mpr (.inr ⟨tally, passed, ran⟩)
    exact ⟨outcome, after, ranVisit, Nat.le_trans lowAfter lowered⟩

/-- Calling a value, if entering a body lowers the rank enough for the body to end. -/
theorem apply {invoke : Invoke Tally} {level : Nat}
    (bodies : ∀ body scope, (invoke body scope).EndsBelow descent.rank bound) (line : Int)
    (lowered : ∀ {later entered}, descent.rank later < level →
      machine.meter.enter line later = some entered → descent.rank entered < bound)
    (callee : Value) (args : List Value) :
    (machine.apply invoke callee args line).EndsBelow descent.rank level := by
  refine machine.apply_related machine invoke invoke
    (fun run _ => run.EndsBelow descent.rank level) rfl done line ?_ callee args
  intro body outer bindings world low
  cases passed : machine.meter.enter line world.tally with
  | none =>
    exact ⟨_, world, Machine.enter_eq_some_iff.mpr (.inl ⟨passed, rfl, rfl⟩), Nat.le_refl _⟩
  | some tally =>
    obtain ⟨value, inside, ran, lowInside⟩ := bodies body (world.forest.add outer).1
      ⟨(world.forest.add outer).2.setAll (world.forest.add outer).1 bindings, tally⟩
      (lowered low passed)
    have ranEnter := Machine.enter_eq_some_iff.mpr
      (.inr ⟨tally, value, inside, passed, ran, rfl, rfl⟩)
    exact ⟨_, _, ranEnter, descent.leave passed lowInside⟩

/-- Visiting a call, when bodies end below a rank that is lower by one. -/
theorem call {invoke : Invoke Tally}
    (bodies : ∀ body scope, (invoke body scope).EndsBelow descent.rank bound) (line : Int)
    (callee : run.EndsBelow descent.rank (bound + 1))
    (args : rest.EndsBelow descent.rank (bound + 1)) :
    (machine.visit line (run.unlessSignal fun function => rest.unlessStopped fun values =>
      machine.apply invoke function values line)).EndsBelow descent.rank (bound + 1) := by
  refine .visit descent line fun {forest before visited} passed low => ?_
  have lowered := descent.visit passed
  have le : descent.rank visited + 1 ≤ bound + 1 := by omega
  refine (callee.weaken le).unlessSignal fun function =>
    (args.weaken le).unlessStopped fun values =>
      .apply descent bodies line (fun {later entered} lowLater enters => ?_) function values
  -- The callee and the arguments have not raised the rank since the call was visited.
  have lowEntered := descent.enter passed (Nat.le_of_lt_succ lowLater) enters
  omega

end

end Run.EndsBelow

namespace Meter.Descent

variable {machine : Machine Tally} (descent : machine.meter.Descent)

/-- The steps of an evaluation end below a rank if bodies end below one that is lower by one. -/
def parallel {invoke : Invoke Tally} {bound : Nat}
    (bodies : ∀ body scope, (invoke body scope).EndsBelow descent.rank bound) (scope : ScopeId) :
    Parallel machine invoke machine invoke scope where
  value run _ := run.EndsBelow descent.rank (bound + 1)
  values run _ := run.EndsBelow descent.rank (bound + 1)
  done result := .done result
  nil := .done _
  resolve _ := fun world _ => ⟨_, world, rfl, Nat.le_refl _⟩
  bind _ _ := fun _ _ => ⟨_, _, rfl, Nat.le_refl _⟩
  unlessSignal first second := .unlessSignal first second
  followedBy first second := .followedBy first second
  unwrapped inside := .unwrapped inside
  visit line _ _ inside := .visit descent line fun passed low => by
    have lowered := descent.visit passed
    exact inside.weaken (by omega)
  call line _ _ _ _ callee args := .call descent bodies line callee args

/-- Bodies end below the number of nested calls that are followed. -/
theorem invoke (bound : Nat) (body : Block) (scope : ScopeId) :
    (machine.invoke bound body scope).EndsBelow descent.rank bound := by
  induction bound generalizing body scope with
  | zero => exact fun _ low => absurd low (Nat.not_lt_zero _)
  | succ bound ih => exact (descent.parallel ih scope).block body

/-- A node has an outcome if as many nested calls are followed as the rank is high. -/
theorem node (node : Node) (scope : ScopeId) (world : World Tally) {bound : Nat}
    (low : descent.rank world.tally ≤ bound) : ∃ value after,
      node.eval machine (machine.invoke bound) scope world = some (value, after) := by
  have ends := (descent.parallel (descent.invoke bound) scope).node node
  obtain ⟨value, after, ran, -⟩ := ends world (Nat.lt_succ_of_le low)
  exact ⟨value, after, ran⟩

end Meter.Descent

namespace Limits

variable {limits : Limits}

/-- With a bound on active calls, the rank is how many may still be entered. -/
def descentOfDepth (bounded : limits.depth ≠ 0) : limits.meter.Descent where
  rank budget := limits.depth - budget.depth
  visit passed := by
    rcases visit_eq_some_iff.mp passed with ⟨-, rfl⟩ | ⟨-, -, rfl⟩ <;> exact Nat.le_refl _
  enter {line forest before visited later entered} passed le enters := by
    have same : visited.depth = before.depth := by
      rcases visit_eq_some_iff.mp passed with ⟨-, rfl⟩ | ⟨-, -, rfl⟩ <;> rfl
    obtain ⟨below, rfl⟩ := enter_eq_some_iff.mp enters
    have room := below bounded
    dsimp only
    omega
  leave {line before entered ended} enters le := by
    obtain ⟨below, rfl⟩ := enter_eq_some_iff.mp enters
    have room := below bounded
    dsimp only [meter] at le ⊢
    omega

/-- With a bound on visits, the rank is how many nodes may still be visited. -/
def descentOfGas (bounded : limits.gas ≠ 0) : limits.meter.Descent where
  rank budget := budget.gas
  visit passed := by
    rcases visit_eq_some_iff.mp passed with ⟨-, rfl⟩ | ⟨-, -, rfl⟩
    · exact Nat.le_refl _
    · exact Nat.sub_le _ _
  enter {line forest before visited later entered} passed le enters := by
    obtain ⟨-, rfl⟩ := enter_eq_some_iff.mp enters
    rcases visit_eq_some_iff.mp passed with ⟨unbounded, -⟩ | ⟨-, some, rfl⟩
    · exact absurd unbounded bounded
    · dsimp only at le ⊢
      omega
  leave {line before entered ended} enters le := by
    obtain ⟨-, rfl⟩ := enter_eq_some_iff.mp enters
    exact le

/-- Limits of which one is a bound give a node an outcome when as many nested calls are followed
as they leave room for. -/
theorem eval_of_bounded (bounded : limits.gas ≠ 0 ∨ limits.depth ≠ 0) (host : Host)
    (fallback : Nat) (node : Node) (scope : ScopeId) (forest : Forest) : ∃ value after,
      node.eval ⟨limits.meter, host⟩ (Machine.invoke ⟨limits.meter, host⟩ (limits.nesting fallback))
        scope ⟨forest, limits.budget⟩ = some (value, after) ∧
      limits.evaluate host fallback node scope forest = some (value, after.forest) := by
  let machine : Machine Budget := ⟨limits.meter, host⟩
  have descends : ∃ descent : machine.meter.Descent,
      descent.rank limits.budget ≤ limits.nesting fallback := by
    by_cases deep : limits.depth ≠ 0
    · refine ⟨descentOfDepth deep, ?_⟩
      simp [descentOfDepth, nesting, budget, deep]
    · have gas : limits.gas ≠ 0 := by omega
      refine ⟨descentOfGas gas, ?_⟩
      simp [descentOfGas, nesting, budget, deep, gas]
  obtain ⟨descent, low⟩ := descends
  obtain ⟨value, after, ran⟩ := descent.node node scope ⟨forest, limits.budget⟩ low
  exact ⟨value, after, ran, evaluate_eq_some_iff.mpr ⟨after.tally, ran⟩⟩

/-- How many nested calls bounded limits leave room for does not depend on a fallback. -/
theorem nesting_of_bounded (bounded : limits.gas ≠ 0 ∨ limits.depth ≠ 0) (fallback other : Nat) :
    limits.nesting fallback = limits.nesting other := by
  by_cases deep : limits.depth ≠ 0
  · simp [nesting, deep]
  · have gas : limits.gas ≠ 0 := by omega
    simp [nesting, deep, gas]

/-- Under limits of which one is a bound every evaluation ends in a value, whatever the node is
and whatever the scopes hold already. What it ends in does not depend on how many nested calls are
followed, once they are as many as the limits leave room for. -/
theorem evaluate_terminates (limits : Limits) (bounded : limits.gas ≠ 0 ∨ limits.depth ≠ 0)
    (host : Host) (node : Node) (scope : ScopeId) (forest : Forest) : ∃ value after,
      (∀ fallback, limits.evaluate host fallback node scope forest = some (value, after.forest)) ∧
      ∀ bound, limits.nesting 0 ≤ bound →
        node.eval ⟨limits.meter, host⟩ (Machine.invoke ⟨limits.meter, host⟩ bound) scope
          ⟨forest, limits.budget⟩ = some (value, after) := by
  obtain ⟨value, after, ran, -⟩ := eval_of_bounded bounded host 0 node scope forest
  refine ⟨value, after, fun fallback => ?_, fun bound enough => Node.eval_invoke_mono enough ran⟩
  rw [evaluate_eq_some_iff, nesting_of_bounded bounded fallback 0]
  exact ⟨after.tally, ran⟩

/-- A procedure that calls itself without end is stopped by the usual bound on active calls. -/
theorem evaluate_runaway :
    let node := Node.program (Program.ofText
      (utf8 "variable f = procedimiento() \x7b f() \x7d; f();")).program
    Limits.default.gas = 0 ∧ Limits.default.depth ≠ 0 ∧ ∃ value after,
      ∀ fallback, Limits.default.evaluate .empty fallback node 0 .single = some (value, after) := by
  intro node
  have bounded : Limits.default.depth ≠ 0 := by decide
  obtain ⟨value, after, evaluated, -⟩ :=
    evaluate_terminates .default (.inr bounded) .empty node 0 .single
  exact ⟨rfl, bounded, value, after.forest, evaluated⟩

end Limits

end Lengua
