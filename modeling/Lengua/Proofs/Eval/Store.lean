import Lengua.Proofs.Eval.Clean
import Lengua.Proofs.Eval.Task
import Lengua.Tree.Reader

/-!
# A clean store

A host may answer with anything: with nothing, with errors, with values on their way out of a
procedure. None of that is ever bound to a name or given to a function, since a signal ends the
construct it occurs in. So the scopes stay clean through any number of evaluations that share them,
with whatever limits and hosts, and what the functions of a host would answer to signals makes no
difference.
-/

namespace Lengua

/-! ## Evaluations that share their scopes -/

/-- With any host, any outcome is possible. -/
theorem Host.confines_any (host : Host) : host.Confines fun _ => True :=
  ⟨fun _ => trivial, fun _ _ _ => trivial, fun _ => trivial⟩

/-- What becomes of a forest through evaluations, one after the other. -/
inductive Forest.Evolves (start : Forest) : Forest → Prop where
  /-- There is no evaluation. -/
  | start : Evolves start start
  /-- There is one more, of any node in any scope. -/
  | evaluate {before after : Forest} (earlier : Evolves start before) {limits : Limits}
    {host : Host} {fallback : Nat} {node : Node} {scope : ScopeId} {value : Value}
    (ended : limits.evaluate host fallback node scope before = some (value, after)) :
    Evolves start after

/-- Evaluations keep the scopes clean, however many there are. -/
theorem Forest.Evolves.clean {start forest : Forest} (evolves : start.Evolves forest)
    (clean : start.Clean) : forest.Clean := by
  induction evolves with
  | start => exact clean
  | @evaluate before after _ limits host fallback node scope value ended ih =>
    obtain ⟨budget, ran⟩ := Limits.evaluate_eq_some_iff.mp ended
    exact (Node.eval_maintains host.confines_any.clean ih ran).1

/-! ## Calls -/

section

variable {Tally : Type} {machine : Machine Tally}

/-- If a step gives values, none of them is a signal. -/
def Run.GivesPlain (rest : Run Tally (Except Value (List Value))) : Prop :=
  ∀ world values after, rest world = some (.ok values, after) →
    ∀ value ∈ values, value.isSignal = false

namespace Run.GivesPlain

/-- Yielding no values. -/
theorem nil : (Run.done (.ok []) : Run Tally (Except Value (List Value))).GivesPlain := by
  rintro world _ _ ⟨⟩
  exact List.forall_mem_nil _

/-- Putting a value before others. -/
theorem followedBy {rest : Run Tally (Except Value (List Value))} (others : rest.GivesPlain)
    (run : Run Tally Value) : (run.followedBy rest).GivesPlain := by
  intro world values after ran
  obtain ⟨value, between, found, -, plain, ranRest, rfl⟩ := Run.followedBy_eq_ok_iff.mp ran
  exact List.forall_mem_cons.mpr ⟨plain, others between found after ranRest⟩

/-- What is done with plain values only need be the same for those. -/
theorem unlessStopped_congr {rest : Run Tally (Except Value (List Value))}
    (plain : rest.GivesPlain) {next next' : List Value → Run Tally Value}
    (same : ∀ values, (∀ value ∈ values, value.isSignal = false) → next values = next' values) :
    rest.unlessStopped next = rest.unlessStopped next' := by
  funext world
  unfold Run.unlessStopped
  cases ran : rest world with
  | none => rfl
  | some found =>
    obtain ⟨outcome, after⟩ := found
    cases outcome with
    | error signal => rfl
    | ok values => exact congrFun (same values (plain world values after ran)) after

end Run.GivesPlain

/-- Expressions give plain values. -/
theorem Expr.evalAll_givesPlain (invoke : Invoke Tally) (scope : ScopeId) (exprs : List Expr) :
    (Expr.evalAll machine invoke scope exprs).GivesPlain := by
  induction exprs with
  | nil => exact .nil
  | cons expr rest ih => exact ih.followedBy (expr.eval machine invoke scope)

/-- A call that a task starts has a plain callee and plain arguments. -/
theorem Task.Starts.plain {outer : Task} {around world : World Tally} {callee : Value}
    {args : List Value} {line : Int}
    (starts : Task.Starts machine outer around (.call callee args line) world) :
    ∀ value ∈ callee :: args, value.isSignal = false := by
  cases starts with
  | application visits called plain others =>
    obtain ⟨enough, ended⟩ := others
    have all := Expr.evalAll_givesPlain _ _ _ _ _ _ (ended enough (Nat.le_refl _))
    exact List.forall_mem_cons.mpr ⟨plain, all⟩

/-- A call that a task comes to, other than that task, has a plain callee and plain arguments. -/
theorem Task.Reaches.plain {through : Task → Prop} {outer inner : Task} {around world : World Tally}
    (reaches : Task.Reaches machine through outer around inner world) {callee : Value}
    {args : List Value} {line : Int} (isCall : inner = .call callee args line)
    (apart : outer ≠ inner) : ∀ value ∈ callee :: args, value.isSignal = false := by
  induction reaches with
  | here => exact absurd rfl apart
  | @step outer next inner _ _ _ _ starts further ih =>
    by_cases same : next = inner
    · rw [same, isCall] at starts
      exact starts.plain
    · exact ih isCall same

end

/-! ## Hosts -/

/-- Hosts that show the same functions, and answer alike to plain arguments. -/
structure Host.PlainlyAgrees (host other : Host) : Prop where
  /-- The functions are the same. -/
  find : ∀ name, other.find? name = host.find? name
  /-- The answers to plain arguments are the same. -/
  answer : ∀ name args line, (∀ arg ∈ args, arg.isSignal = false) →
    other.answer (.host name) args line = host.answer (.host name) args line

namespace Host.PlainlyAgrees

variable {host other : Host} (agrees : host.PlainlyAgrees other) {Tally : Type}
  (meter : Meter Tally)

include agrees

/-- Calls with plain arguments are the same. -/
theorem apply_eq (invoke : Invoke Tally) (callee : Value) {args : List Value}
    (plain : ∀ arg ∈ args, arg.isSignal = false) (line : Int) :
    Machine.apply ⟨meter, host⟩ invoke callee args line =
      Machine.apply ⟨meter, other⟩ invoke callee args line := by
  cases callee with
  | builtin function =>
    cases function with
    | length => rfl
    | host name => exact congrArg Run.done (agrees.answer name args line plain).symm
  | _ => rfl

/-- Evaluations are the same. That the arguments of a call are plain goes along. -/
def parallel (invoke : Invoke Tally) (scope : ScopeId) :
    Parallel ⟨meter, host⟩ invoke ⟨meter, other⟩ invoke scope where
  value run run' := run = run'
  values rest rest' := rest = rest' ∧ rest.GivesPlain
  done _ := rfl
  nil := ⟨rfl, .nil⟩
  resolve id := by
    have same : Machine.resolve (⟨meter, host⟩ : Machine Tally) scope id =
        Machine.resolve (⟨meter, other⟩ : Machine Tally) scope id := by
      funext forest
      simp only [Machine.resolve, agrees.find]
    rw [same]
  bind _ _ := rfl
  unlessSignal first second := by rw [first, funext second]
  followedBy first second := ⟨by rw [first, second.1], second.2.followedBy _⟩
  unwrapped inside := by rw [inside]
  visit line _ _ inside := by rw [inside]; rfl
  call line run run' rest rest' callee args := by
    obtain ⟨rfl, plain⟩ := args
    have same (function : Value) := plain.unlessStopped_congr fun values allPlain =>
      agrees.apply_eq meter invoke function allPlain line
    simp only [callee, same]
    rfl

/-- Bodies are the same. -/
theorem invoke_eq (bound : Nat) :
    Machine.invoke ⟨meter, host⟩ bound = Machine.invoke ⟨meter, other⟩ bound := by
  induction bound with
  | zero => rfl
  | succ bound ih =>
    funext body scope
    have same := (agrees.parallel meter (Machine.invoke ⟨meter, host⟩ bound) scope).block body
    rw [Machine.invoke, Machine.invoke, ← ih]
    exact same

/-- Evaluations under limits are the same. -/
theorem evaluate_eq (limits : Limits) (fallback : Nat) (node : Node) (scope : ScopeId)
    (forest : Forest) : limits.evaluate other fallback node scope forest =
      limits.evaluate host fallback node scope forest := by
  have same := (agrees.parallel limits.meter
    (Machine.invoke ⟨limits.meter, host⟩ (limits.nesting fallback)) scope).node node
  unfold Limits.evaluate
  dsimp only
  rw [← agrees.invoke_eq limits.meter, ← show node.eval _ _ _ = node.eval _ _ _ from same]

end Host.PlainlyAgrees

/-- Scopes that start clean are clean after any sequence of evaluations, whatever the limits, the
hosts, the nodes and their scopes. In every evaluation that follows, no call that it comes to has a
signal for its callee or among its arguments, and so it is the same with another host that answers
alike to plain arguments. -/
theorem Forest.Evolves.stays_clean {start forest : Forest} (clean : start.Clean)
    (evolves : start.Evolves forest) :
    forest.Clean ∧ ∀ (limits : Limits) (host : Host) (node : Node) (scope : ScopeId),
      (∀ callee args line world,
        Task.Reaches ⟨limits.meter, host⟩ (fun _ => True) (node.task scope)
          ⟨forest, limits.budget⟩ (.call callee args line) world →
        ∀ value ∈ callee :: args, value.isSignal = false) ∧
      ∀ other, host.PlainlyAgrees other → ∀ fallback,
        limits.evaluate other fallback node scope forest =
          limits.evaluate host fallback node scope forest := by
  refine ⟨evolves.clean clean, fun limits host node scope => ⟨?_, ?_⟩⟩
  · intro callee args line world reaches
    have apart : node.task scope ≠ .call callee args line := by
      cases node <;> exact fun same => nomatch same
    exact reaches.plain rfl apart
  · intro other agrees fallback
    exact agrees.evaluate_eq limits fallback node scope forest

/-- A host answers with an error inside a value that leaves a procedure, and with nothing at all.
The first is never bound, and instead of the second null is. Another host answers to signals too,
and makes no difference. -/
theorem Forest.Evolves.stays_clean_host :
    let answer (args : List Value) : Option Value :=
      if args.isEmpty then some (.returned (.error .tooDeep 7)) else none
    let host : Host := ⟨[utf8 "f"], fun _ => some fun args _ => answer args⟩
    let other : Host := ⟨[utf8 "f"], fun _ => some fun args _ =>
      if args.any Value.isSignal then some (.bool true) else answer args⟩
    let node (source : String) := Node.program (Program.ofText (utf8 source)).program
    ∃ value before last forest,
      Limits.default.evaluate host 0 (node "x = f()") 0 .single = some (value, before) ∧
      Limits.default.evaluate host 0 (node "y = f(3)") 0 before = some (last, forest) ∧
      forest.Clean ∧ forest.names 0 = [utf8 "y"] ∧ (forest.get? 0 (utf8 "y")).isSome ∧
      Limits.default.evaluate other 0 (node "f(f())") 0 forest =
        Limits.default.evaluate host 0 (node "f(f())") 0 forest := by
  intro answer host other node
  have traced : ((Limits.default.evaluate host 0 (node "x = f()") 0 .single).bind fun found =>
      (Limits.default.evaluate host 0 (node "y = f(3)") 0 found.2).map fun after =>
        (after.2.names 0, (after.2.get? 0 (utf8 "y")).isSome)) = some ([utf8 "y"], true) := by
    decide +kernel
  obtain ⟨⟨value, before⟩, first, rest⟩ := Option.bind_eq_some_iff.mp traced
  obtain ⟨⟨last, forest⟩, second, facts⟩ := Option.map_eq_some_iff.mp rest
  obtain ⟨names, bound⟩ := Prod.mk.inj facts
  have evolves : Forest.single.Evolves forest := .evaluate (.evaluate .start first) second
  have agrees : host.PlainlyAgrees other := by
    refine ⟨fun _ => rfl, fun name args line plain => ?_⟩
    have none : args.any Value.isSignal = false := by simpa using plain
    simp only [Host.answer, host, other, none, Bool.false_eq_true, if_false]
  obtain ⟨clean, later⟩ := stays_clean .single evolves
  have same := (later .default host (node "f(f())") 0).2 other agrees 0
  exact ⟨value, before, last, forest, first, second, clean, names, bound, same⟩

end Lengua
