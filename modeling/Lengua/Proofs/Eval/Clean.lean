import Lengua.Proofs.Eval.Discipline

/-!
# Scopes without signals

A signal ends the construct it occurs in before anything is bound to it, so a run that
starts with no scope binding a signal ends so, whatever the limits and the host. What an
evaluation itself ends in is settled: a plain value, an error, or a plain value on its way
out of a procedure, as long as the host answers with nothing else.

The argument needs only that opening a scope and binding a plain value keep the scopes as they
are described, and that a look-up gives a possible outcome. So it is made once for all such
descriptions (`Host.Maintains`), of which clean scopes are one; each is a discipline.
-/

namespace Lengua

/-! ## Outcomes -/

namespace Value

/-- What an evaluation ends in: a plain value, an error, or a plain value on its way out of a
procedure. -/
inductive Settled : Value → Prop where
  /-- A plain value. -/
  | plain {value : Value} (plain : value.isSignal = false) : Settled value
  /-- An error. -/
  | error (fault : Fault) (line : Int) : Settled (.error fault line)
  /-- A plain value on its way out of a procedure. -/
  | returned {value : Value} (plain : value.isSignal = false) : Settled (.returned value)

/-- Once it has left the procedure, a settled value is plain or an error. -/
theorem Settled.unwrapped {value : Value} (settled : value.Settled) :
    value.unwrapped.isSignal = false ∨ value.unwrapped.isError = true := by
  cases settled with
  | plain plain =>
    cases value with
    | error | returned | returnedNothing => cases plain
    | _ => exact .inl rfl
  | error fault line => exact .inr rfl
  | returned plain => exact .inl plain

/-- What an operation gives is settled. -/
theorem GivenAt.settled {line : Int} {value : Value} (given : value.GivenAt line) :
    value.Settled := by
  cases given with
  | error told => exact .error _ _
  | _ => exact .plain rfl

end Value

/-! ## Scopes -/

namespace Forest

/-- Whatever the scopes bind is as described. -/
def Binds (fine : Value → Prop) (forest : Forest) : Prop :=
  ∀ (id : ScopeId) (scope : Scope), forest.scopes[id]? = some scope →
    ∀ binding ∈ scope.bindings, fine binding.2

namespace Binds

variable {fine : Value → Prop} {forest : Forest}

/-- The forest of a new run binds nothing. -/
theorem single : Forest.single.Binds fine := by
  intro id scope found binding mem
  have empty : scope = ⟨[], none⟩ := by
    rw [Forest.single, List.getElem?_toArray, List.getElem?_singleton] at found
    split at found
    · exact (Option.some.inj found).symm
    · cases found
  rw [empty] at mem
  cases mem

/-- What a name stands for is as described. -/
theorem get (binds : forest.Binds fine) {id : ScopeId} {name : Text} {value : Value}
    (found : forest.get? id name = some value) : fine value := by
  obtain ⟨holder, -, own⟩ := List.exists_of_findSome?_eq_some found
  obtain ⟨scope, atHolder, bound⟩ := Option.bind_eq_some_iff.mp own
  obtain ⟨before, after, split, -⟩ := List.lookup_eq_some_iff.mp bound
  have mem : (name, value) ∈ scope.bindings := by
    rw [split]
    exact List.mem_append_right before List.mem_cons_self
  exact binds holder scope atHolder (name, value) mem

/-- Binding a value as described. -/
theorem set (binds : forest.Binds fine) {value : Value} (holds : fine value) (id : ScopeId)
    (name : Text) : (forest.set id name value).Binds fine := by
  intro index scope found binding mem
  rw [Forest.getElem_set] at found
  split at found
  · obtain ⟨before, old, rfl⟩ := Option.map_eq_some_iff.mp found
    rcases Scope.mem_bind mem with rfl | kept
    · exact holds
    · exact binds index before old binding kept
  · exact binds index scope found binding mem

/-- Binding values as described. -/
theorem setAll (binds : forest.Binds fine) {bindings : List (Text × Value)}
    (holds : ∀ binding ∈ bindings, fine binding.2) (id : ScopeId) :
    (forest.setAll id bindings).Binds fine := by
  unfold Forest.setAll
  induction bindings generalizing forest with
  | nil => exact binds
  | cons binding rest ih =>
    obtain ⟨first, others⟩ := List.forall_mem_cons.mp holds
    exact ih (binds.set first id binding.1) others

/-- Opening a scope. -/
theorem add (binds : forest.Binds fine) (outer : Option ScopeId) :
    (forest.add outer).2.Binds fine := by
  intro id scope found binding mem
  rw [Forest.getElem_add] at found
  split at found
  · cases found
    cases mem
  · exact binds id scope found binding mem

end Binds

/-- No scope binds a signal. -/
def Clean (forest : Forest) : Prop :=
  ∀ (id : ScopeId) (scope : Scope), forest.scopes[id]? = some scope →
    ∀ binding ∈ scope.bindings, binding.2.isSignal = false

namespace Clean

variable {forest : Forest}

/-- Whatever a clean forest binds is plain. -/
theorem binds (clean : forest.Clean) : forest.Binds fun value => value.isSignal = false := clean

/-- The forest of a new run is clean. -/
theorem single : Forest.single.Clean :=
  show Forest.single.Binds fun value => value.isSignal = false from .single

/-- What a name stands for in a clean forest is plain. -/
theorem get (clean : forest.Clean) {id : ScopeId} {name : Text} {value : Value}
    (found : forest.get? id name = some value) : value.isSignal = false :=
  clean.binds.get found

/-- Binding a plain value. -/
theorem set (clean : forest.Clean) {value : Value} (plain : value.isSignal = false) (id : ScopeId)
    (name : Text) : (forest.set id name value).Clean :=
  clean.binds.set plain id name

/-- Opening a scope. -/
theorem add (clean : forest.Clean) (outer : Option ScopeId) : (forest.add outer).2.Clean :=
  clean.binds.add outer

end Clean

end Forest

/-! ## Runs -/

/-- A description of outcomes that evaluations with a host do not leave. -/
structure Host.Confines (host : Host) (fine : Value → Prop) : Prop where
  /-- It has room for settled values. -/
  settled : ∀ {value}, value.Settled → fine value
  /-- It has room for the answers of the host. -/
  answer : ∀ name args line, fine (host.answer (.host name) args line)
  /-- It has room for what leaves a procedure. -/
  unwrapped : ∀ {value}, fine value → fine value.unwrapped

/-- Without functions of the host all outcomes are settled. -/
theorem Host.empty_confines : Host.empty.Confines Value.Settled where
  settled := id
  answer _ _ _ := .plain rfl
  unwrapped {value} settled := by
    rcases settled.unwrapped with plain | isError
    · exact .plain plain
    · cases result : value.unwrapped with
      | error fault line => exact .error fault line
      | _ =>
        rw [result] at isError
        cases isError

/-- Descriptions of scopes and of outcomes that evaluations with a host do not leave. -/
structure Host.Maintains (host : Host) (keeps : Forest → Prop) (fine : Value → Prop) : Prop
    extends host.Confines fine where
  /-- What a name stands for is a possible outcome. -/
  get : ∀ {forest id name value}, keeps forest → forest.get? id name = some value → fine value
  /-- A plain value may be bound. -/
  set : ∀ {forest value}, keeps forest → value.isSignal = false →
    ∀ id name, keeps (forest.set id name value)
  /-- A scope may be opened. -/
  add : ∀ {forest}, keeps forest → ∀ outer, keeps (forest.add outer).2

/-- Plain values may be bound. -/
theorem Host.Maintains.setAll {host : Host} {keeps : Forest → Prop} {fine : Value → Prop}
    (maintains : host.Maintains keeps fine) {forest : Forest} (kept : keeps forest)
    {bindings : List (Text × Value)} (plain : ∀ binding ∈ bindings, binding.2.isSignal = false)
    (id : ScopeId) : keeps (forest.setAll id bindings) := by
  unfold Forest.setAll
  induction bindings generalizing forest with
  | nil => exact kept
  | cons binding rest ih =>
    have bound := maintains.set kept (plain binding List.mem_cons_self) id binding.1
    exact ih bound fun later mem => plain later (List.mem_cons_of_mem _ mem)

/-- Scopes stay clean, whatever else is known of the outcomes. -/
theorem Host.Confines.clean {host : Host} {fine : Value → Prop} (confines : host.Confines fine) :
    host.Maintains Forest.Clean fine where
  toConfines := confines
  get clean found := confines.settled (.plain (clean.get found))
  set clean plain := clean.set plain
  add clean := clean.add

/-! ## Evaluations -/

section

variable {Tally : Type} {machine : Machine Tally} {keeps : Forest → Prop} {fine : Value → Prop}

/-- A call that is given plain values keeps the scopes as described when it enters a body. -/
theorem Host.Maintains.enter (maintains : machine.host.Maintains keeps fine) {callee : Value}
    {args : List Value} {line : Int} {inner : Task} {world there : World Tally}
    (kept : keeps world.forest)
    (given : (Task.call callee args line).Given fine)
    (started : Task.Starts machine (.call callee args line) world inner there) :
    keeps there.forest := by
  cases started with
  | body =>
    refine maintains.setAll (maintains.add kept _) (fun binding mem => ?_) _
    exact (given.2 binding.2 (List.of_mem_zip mem).2).2

/-- Evaluations keep the scopes as described and end in values as described. Calls that are started
are given plain arguments, so these may be bound. -/
def Host.Maintains.discipline (maintains : machine.host.Maintains keeps fine) :
    Discipline machine where
  may task world := keeps world.forest ∧ task.Given fine
  becomes world after := keeps world.forest → keeps after.forest
  fine _ value := fine value
  refl _ := id
  trans first second := second ∘ first
  mono _ := id
  visit _ _ visits := by
    obtain ⟨_, -, rfl⟩ := visits
    exact id
  starts may _ became given := ⟨became may.1, given⟩
  enter may started kept := maintains.enter kept may.2 started
  leave became := became
  bind _ _ _ _ plain kept := maintains.set kept plain _ _
  null _ := maintains.settled (.plain rfl)
  given _ _ given := maintains.settled given.settled
  bound may found := maintains.get may.1 found
  builtin _ _ := maintains.settled (.plain rfl)
  procedure _ := maintains.settled (.plain rfl)
  returned _ plain := maintains.settled (.returned plain)
  unwrapped holds := maintains.unwrapped holds
  answer _ := maintains.answer _ _ _

variable {bound : Nat} {scope : ScopeId} {world after : World Tally} {value : Value}

/-- Nodes keep the scopes as described, and their values are as described. -/
theorem Node.eval_maintains (maintains : machine.host.Maintains keeps fine) {node : Node}
    (kept : keeps world.forest)
    (ran : node.eval machine (machine.invoke bound) scope world = some (value, after)) :
    keeps after.forest ∧ fine value := by
  have given : (node.task scope).Given fine := by cases node <;> trivial
  rw [← Node.run_task] at ran
  exact (maintains.discipline.task ⟨kept, given⟩ ran).imp_left fun became => became kept

/-- Programs keep the scopes as described, and end in what has left every procedure. -/
theorem Program.eval_maintains (maintains : machine.host.Maintains keeps fine) {program : Program}
    (kept : keeps world.forest)
    (ran : program.eval machine (machine.invoke bound) scope world = some (value, after)) :
    keeps after.forest ∧ ∃ before, fine before ∧ value = before.unwrapped :=
  (maintains.discipline.program ⟨kept, trivial⟩ ran).imp_left fun became => became kept

/-- Statements keep the scopes as described, and their value is as described. -/
theorem Stmt.evalAll_maintains (maintains : machine.host.Maintains keeps fine) {stmts : List Stmt}
    (kept : keeps world.forest)
    (ran : Stmt.evalAll machine (machine.invoke bound) scope .null stmts world =
      some (value, after)) : keeps after.forest ∧ fine value := by
  have may : maintains.discipline.MayStmts bound scope .null stmts world :=
    fun _ _ _ _ _ _ _ _ became => ⟨became kept, trivial⟩
  have bodies := maintains.discipline.invoke bound
  have null : fine .null := maintains.settled (.plain rfl)
  have ended := Discipline.stmts bodies rfl null stmts may value after ran
  exact ended.imp_left fun became => became kept

end

end Lengua
