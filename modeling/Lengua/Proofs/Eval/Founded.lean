import Lengua.Proofs.Eval.Clean
import Lengua.Proofs.Eval.Lexical

/-!
# Founded forests

Procedures are bound in scopes and point back to scopes, so what a forest leads to may go in
circles. The links from scopes to those around them do not: a scope is opened inside one that exists
already, either by the host or for a call, and then the scope is that of a procedure. For this the
scopes of all procedures have to exist, wherever an evaluation has got them from. A founded forest
has both properties, and an evaluation keeps them. So the way outward from a scope ends, after no
more steps than there are scopes.
-/

namespace Lengua

/-! ## Values and forests -/

/-- A value that leads to none but the first so many scopes. -/
def Value.Inside (size : Nat) (value : Value) : Prop := ∀ id, value.home? = some id → id < size

namespace Value.Inside

variable {size later : Nat} {value : Value}

/-- A value without a scope. -/
theorem flat (none : value.home? = none) : value.Inside size := by
  intro id home
  rw [none] at home
  cases home

/-- More scopes do no harm. -/
theorem mono (inside : value.Inside size) (le : size ≤ later) : value.Inside later :=
  fun id home => Nat.lt_of_lt_of_le (inside id home) le

/-- Leaving a procedure. -/
theorem unwrapped (inside : value.Inside size) : value.unwrapped.Inside size :=
  fun id home => inside id (Value.home_unwrapped home)

end Value.Inside

namespace Forest

/-- Every scope lies in one that was opened before, if in any, and all values that are bound lead to
scopes of the forest. -/
structure Founded (forest : Forest) : Prop where
  /-- The scope around another is older. -/
  older : ∀ {id next}, forest.outer? id = some next → next < id
  /-- The scopes of procedures exist. -/
  binds : forest.Binds (Value.Inside forest.scopes.size)

namespace Founded

variable {forest : Forest}

/-- The forest without a scope is founded. -/
theorem empty : Forest.empty.Founded where
  older found := by cases found
  binds _ _ found := by cases found

/-- Binding a value that leads to a scope of the forest. -/
theorem set (founded : forest.Founded) (id : ScopeId) (name : Text) {value : Value}
    (inside : value.Inside forest.scopes.size) : (forest.set id name value).Founded where
  older found := by
    rw [outer_set] at found
    exact founded.older found
  binds := by
    rw [size_set]
    exact founded.binds.set inside id name

/-- Binding several such values. -/
theorem setAll (founded : forest.Founded) {bindings : List (Text × Value)}
    (inside : ∀ binding ∈ bindings, binding.2.Inside forest.scopes.size) (id : ScopeId) :
    (forest.setAll id bindings).Founded := by
  unfold Forest.setAll
  induction bindings generalizing forest with
  | nil => exact founded
  | cons binding rest ih =>
    obtain ⟨first, others⟩ := List.forall_mem_cons.mp inside
    refine ih (founded.set id binding.1 first) fun later mem => ?_
    rw [size_set]
    exact others later mem

/-- Opening a scope inside one of the forest, or inside none. -/
theorem add (founded : forest.Founded) {outer : Option ScopeId}
    (inside : ∀ id, outer = some id → id < forest.scopes.size) :
    (forest.add outer).2.Founded where
  older {id next} found := by
    rw [outer_add] at found
    split at found
    · next new => exact new ▸ inside next found
    · exact founded.older found
  binds := by
    rw [size_add]
    intro id scope found binding mem
    exact (founded.binds.add outer id scope found binding mem).mono (Nat.le_succ _)

end Founded

end Forest

/-! ## Evaluations -/

/-- What a task gives on its own has no scope. -/
theorem Value.GivenAt.inside {line : Int} {value : Value} (given : value.GivenAt line)
    (size : Nat) : value.Inside size := by
  cases given <;> exact .flat rfl

/-- A task that leads to none but the first so many scopes. -/
def Task.Inside (size : Nat) : Task → Prop
  | .program _ scope | .stmt _ scope | .expr _ scope | .block _ scope => scope < size
  | .call callee args _ => callee.Inside size ∧ ∀ arg ∈ args, arg.Inside size

section

variable {Tally : Type} {machine : Machine Tally} {inner : Task} {world there : World Tally}

/-- What a task starts leads to the scopes there are, in no fewer scopes than before. -/
theorem Task.Inside.start {task : Task} (inside : task.Inside world.forest.scopes.size)
    (started : Task.Starts machine task world inner there)
    (le : world.forest.scopes.size ≤ there.forest.scopes.size)
    (given : inner.Given (Value.Inside there.forest.scopes.size)) :
    inner.Inside there.forest.scopes.size := by
  cases started with
  | body =>
    change world.forest.scopes.size < _
    rw [Forest.size_setAll, Forest.size_add]
    exact Nat.lt_succ_self _
  | application => exact ⟨given.1, fun arg mem => (given.2 arg mem).1⟩
  | _ => exact Nat.lt_of_lt_of_le inside le

/-- A call opens a scope inside that of the procedure, and so inside an older one. -/
theorem Forest.Founded.enter {callee : Value} {args : List Value} {line : Int}
    (founded : world.forest.Founded)
    (inside : (Task.call callee args line).Inside world.forest.scopes.size)
    (started : Task.Starts machine (.call callee args line) world inner there) :
    world.forest.scopes.size ≤ there.forest.scopes.size ∧ there.forest.Founded := by
  obtain ⟨around, within⟩ := inside
  cases started with
  | @body params body outer _ _ _ tally arity entered =>
    have more : (world.forest.add outer).2.scopes.size = world.forest.scopes.size + 1 :=
      Forest.size_add outer
    constructor
    · rw [Forest.size_setAll, more]
      exact Nat.le_succ _
    · have opened : (world.forest.add outer).2.Founded :=
        founded.add fun id isOuter => around id isOuter
      refine opened.setAll (fun binding mem => ?_) _
      refine (within binding.2 (List.of_mem_zip mem).2).mono ?_
      rw [more]
      exact Nat.le_succ _

/-- Evaluations keep forests founded. All scopes that the host holds and that a task leads to have
to exist before it is started. -/
def Forest.Founded.discipline (machine : Machine Tally) : Discipline machine where
  may task world := world.forest.Founded ∧
    (∀ id, machine.host.Holds id → id < world.forest.scopes.size) ∧
    task.Inside world.forest.scopes.size
  becomes world after := world.forest.scopes.size ≤ after.forest.scopes.size ∧
    (world.forest.Founded → after.forest.Founded)
  fine forest value := value.Inside forest.scopes.size
  refl _ := ⟨Nat.le_refl _, id⟩
  trans first second := ⟨Nat.le_trans first.1 second.1, second.2 ∘ first.2⟩
  mono became inside := inside.mono became.1
  visit _ _ visits := by
    obtain ⟨_, -, rfl⟩ := visits
    exact ⟨Nat.le_refl _, id⟩
  starts may started became given := by
    obtain ⟨founded, held, inside⟩ := may
    exact ⟨became.2 founded, fun id holds => Nat.lt_of_lt_of_le (held id holds) became.1,
      inside.start started became.1 given⟩
  enter may started := by
    obtain ⟨founded, -, inside⟩ := may
    exact (founded.enter inside started).imp_right fun foundedThere _ => foundedThere
  leave became := became
  bind _ _ _ inside _ := by
    refine ⟨?_, fun founded => founded.set _ _ inside⟩
    rw [Forest.size_set]
  null _ := .flat rfl
  given _ _ given := given.inside _
  bound may found := may.1.binds.get found
  builtin _ _ := .flat rfl
  procedure may id home := Option.some.inj home ▸ may.2.2
  returned inside _ := inside
  unwrapped inside := inside.unwrapped
  answer may id home := by
    obtain ⟨-, held, -, within⟩ := may
    rcases Host.holds_or_mem home with holds | ⟨arg, mem, same⟩
    · exact held id holds
    · exact within arg mem id same

end

/-- An evaluation in a scope of a founded forest removes no scope and keeps the forest founded, and
its value leads to a scope of the forest. -/
theorem Limits.evaluate_founded {limits : Limits} {host : Host} {fallback : Nat} {node : Node}
    {scope : ScopeId} {forest after : Forest} {value : Value} (founded : forest.Founded)
    (there : scope < forest.scopes.size) (held : ∀ id, host.Holds id → id < forest.scopes.size)
    (ended : limits.evaluate host fallback node scope forest = some (value, after)) :
    forest.scopes.size ≤ after.scopes.size ∧ after.Founded ∧ value.Inside after.scopes.size := by
  obtain ⟨budget, ran⟩ := evaluate_eq_some_iff.mp ended
  have inside : (node.task scope).Inside forest.scopes.size := by cases node <;> exact there
  let law : Discipline ⟨limits.meter, host⟩ := Forest.Founded.discipline _
  have may : law.may (node.task scope) ⟨forest, limits.budget⟩ := ⟨founded, held, inside⟩
  rw [← Node.run_task] at ran
  obtain ⟨⟨le, keeps⟩, within⟩ := law.task may ran
  exact ⟨le, keeps founded, within⟩

/-! ## Forests that arise -/

namespace Forest

/-- How forests arise, with the values that evaluations have yielded on the way: scopes are opened
and names bound by a host, and nodes are evaluated. Only scopes that exist are mentioned, also by
the functions of a host, which cannot open any. -/
inductive Arises : Forest → List Value → Prop where
  /-- There is no scope. -/
  | empty : Arises .empty []
  /-- One more scope is opened, maybe inside another one. -/
  | add {forest : Forest} {results : List Value} (before : Arises forest results)
    {outer : Option ScopeId} (inside : ∀ id, outer = some id → id < forest.scopes.size) :
    Arises (forest.add outer).2 results
  /-- One more name is bound. -/
  | set {forest : Forest} {results : List Value} (before : Arises forest results) {id : ScopeId}
    (there : id < forest.scopes.size) (name : Text) {value : Value}
    (inside : ∀ home, value.home? = some home → home < forest.scopes.size) :
    Arises (forest.set id name value) results
  /-- One more node is evaluated. -/
  | evaluate {forest after : Forest} {results : List Value} (before : Arises forest results)
    {limits : Limits} {host : Host} {fallback : Nat} {node : Node} {scope : ScopeId}
    (there : scope < forest.scopes.size)
    (held : ∀ id, host.Holds id → id < forest.scopes.size) {value : Value}
    (ended : limits.evaluate host fallback node scope forest = some (value, after)) :
    Arises after (value :: results)

/-- However a forest arises, it is founded, and the values that evaluations have yielded lead to
scopes of it. -/
theorem Arises.becomes {forest : Forest} {results : List Value} (arises : forest.Arises results) :
    forest.Founded ∧ ∀ value ∈ results, value.Inside forest.scopes.size := by
  induction arises with
  | empty => exact ⟨.empty, List.forall_mem_nil _⟩
  | @add forest results before outer inside ih =>
    obtain ⟨founded, yielded⟩ := ih
    refine ⟨founded.add inside, fun value mem => (yielded value mem).mono ?_⟩
    rw [size_add]
    exact Nat.le_succ _
  | @set forest results before id there name value inside ih =>
    obtain ⟨founded, yielded⟩ := ih
    refine ⟨founded.set id name inside, fun value mem => (yielded value mem).mono ?_⟩
    rw [size_set]
  | @evaluate forest after results _ limits host fallback node scope there held value ended ih =>
    obtain ⟨founded, yielded⟩ := ih
    obtain ⟨le, foundedAfter, inside⟩ := Limits.evaluate_founded founded there held ended
    refine ⟨foundedAfter, List.forall_mem_cons.mpr ⟨inside, fun value mem => ?_⟩⟩
    exact (yielded value mem).mono le

/-- What is found when a name is looked up in a scope and then, step by step, in those around it, as
far as it takes, and in how many steps. -/
inductive Finds (forest : Forest) (name : Text) : Option ScopeId → Nat → Option Value → Prop where
  /-- There is no further scope. -/
  | outside : Finds forest name none 0 none
  /-- The scope binds the name. -/
  | bound {id : ScopeId} {value : Value} (own : forest.own? name id = some value) :
    Finds forest name (some id) 1 (some value)
  /-- The scope does not bind the name, and the search goes on around it. -/
  | outward {id : ScopeId} (own : forest.own? name id = none) {steps : Nat} {found : Option Value}
    (further : Finds forest name (forest.outer? id) steps found) :
    Finds forest name (some id) (steps + 1) found

/-- In a founded forest a search ends, in no more steps than there are scopes up to the first, and
finds what a look-up gives. -/
theorem Founded.finds {forest : Forest} (founded : forest.Founded) (id : ScopeId) (name : Text) :
    ∃ steps ≤ id + 1, forest.Finds name (some id) steps (forest.get? id name) := by
  -- The scope around is older, that is, it has a smaller number.
  induction id using Nat.strong_induction_on with
  | h id ih =>
    rw [get_eq]
    cases own : forest.own? name id with
    | some value => exact ⟨1, Nat.le_add_left 1 id, .bound own⟩
    | none =>
      rw [Option.none_or]
      cases around : forest.outer? id with
      | none =>
        have further : forest.Finds name (forest.outer? id) 0 none := around ▸ .outside
        exact ⟨1, Nat.le_add_left 1 id, .outward own further⟩
      | some next =>
        have older : next < id := founded.older around
        obtain ⟨steps, few, found⟩ := ih next older
        rw [← around] at found
        exact ⟨steps + 1, Nat.succ_le_succ (Nat.le_trans few older), .outward own found⟩

/-- However a forest arises, each of its scopes lies in an older one, if in any. Every procedure
that a scope binds and every one that an evaluation has yielded belongs to a scope of the forest, if
to any. And from every scope the search for a name ends after at most as many steps as there are
scopes, with what a look-up gives. -/
theorem Arises.founded {forest : Forest} {results : List Value} (arises : forest.Arises results) :
    (∀ id next, forest.outer? id = some next → next < id) ∧
      (∀ (id : ScopeId) (scope : Scope), forest.scopes[id]? = some scope →
        ∀ binding ∈ scope.bindings, ∀ home, binding.2.home? = some home →
          home < forest.scopes.size) ∧
      (∀ value ∈ results, ∀ home, value.home? = some home → home < forest.scopes.size) ∧
      ∀ id < forest.scopes.size, ∀ name, ∃ steps ≤ forest.scopes.size,
        forest.Finds name (some id) steps (forest.get? id name) := by
  obtain ⟨founded, yielded⟩ := arises.becomes
  refine ⟨fun _ _ => founded.older, founded.binds, yielded, fun id there name => ?_⟩
  obtain ⟨steps, few, found⟩ := founded.finds id name
  exact ⟨steps, Nat.le_trans few there, found⟩

/-- A program leaves a procedure in a scope that it has opened. A host opens a scope inside this one
and has the procedure called there, which opens another inside the same. -/
theorem Arises.founded_called :
    let maker := Node.program (Program.ofText (utf8
      "crear = procedimiento(n) \x7b procedimiento(m) \x7b n + m \x7d \x7d\nsumar = crear(5)"
    )).program
    let user := Node.program (Program.ofText (utf8 "sumar(3)")).program
    ∃ value between result after,
      Limits.default.evaluate .empty 0 maker 0 .single = some (value, between) ∧
      Limits.default.evaluate .empty 0 user 2 (between.add (some 1)).2 = some (result, after) ∧
      after.Arises [result, value] ∧ value.home? = some 1 ∧ after.outer? 3 = some 1 ∧
      after.scopes.size = 4 ∧ ∃ steps ≤ 4,
        after.Finds (utf8 "crear") (some 3) steps (after.get? 3 (utf8 "crear")) := by
  intro maker user
  let call (between : Forest) :=
    Limits.default.evaluate .empty 0 user 2 (between.add (some 1)).2
  have traced : ((Limits.default.evaluate .empty 0 maker 0 .single).bind fun made =>
      (call made.2).map fun called =>
        (made.2.scopes.size, made.1.home?, called.2.outer? 3, called.2.scopes.size)) =
      some (2, some 1, some 1, 4) := by
    decide +kernel
  obtain ⟨⟨value, between⟩, made, calling⟩ := Option.bind_eq_some_iff.mp traced
  obtain ⟨⟨result, after⟩, called, facts⟩ := Option.map_eq_some_iff.mp calling
  obtain ⟨two, home, around, four⟩ : between.scopes.size = 2 ∧ value.home? = some 1 ∧
      after.outer? 3 = some 1 ∧ after.scopes.size = 4 := by
    simpa only [Prod.mk.injEq] using facts
  have noneHeld {size : Nat} (id : ScopeId) (holds : Host.empty.Holds id) : id < size :=
    absurd holds (Host.not_holds_empty id)
  have first : Forest.single.Arises [] := by
    refine Arises.add .empty (fun id outer => ?_)
    cases outer
  have second : between.Arises [value] := first.evaluate Nat.one_pos noneHeld made
  have third : (between.add (some 1)).2.Arises [value] := by
    refine second.add fun id outer => ?_
    cases outer
    rw [two]
    exact Nat.one_lt_two
  have last : after.Arises [result, value] := by
    refine third.evaluate ?_ noneHeld called
    rw [size_add, two]
    exact Nat.lt_succ_self 2
  obtain ⟨-, -, -, searches⟩ := Arises.founded last
  rw [four] at searches
  exact ⟨value, between, result, after, made, called, last, home, around, four,
    searches 3 (by decide) _⟩

end Forest

end Lengua
