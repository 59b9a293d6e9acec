import Lengua.Proofs.Eval.Discipline
import Lengua.Proofs.Eval.Termination

/-!
# What an evaluation leaves alone

A name is only ever bound in the scope where the tree that binds it is evaluated. The body of a
procedure is evaluated in a scope opened for the call, so of the scopes that exist when an
evaluation starts it changes its own only, and there binds no other names than the targets of
the tree. A call changes no scope that exists when it is made.
-/

namespace Lengua

/-! ## Scopes that are only added to -/

namespace Scope

/-- A binding stays when a name is bound, maybe with another value. -/
theorem mem_names_set {scope : Scope} {name bound : Text} (value : Value)
    (mem : name ∈ scope.names) : name ∈ (scope.set bound value).names := by
  obtain ⟨bindings, outer⟩ := scope
  simp only [names, set] at mem ⊢
  induction bindings with
  | nil => cases mem
  | cons binding rest ih =>
    obtain ⟨key, old⟩ := binding
    rw [List.map_cons, List.mem_cons] at mem
    unfold bind
    split
    · next same =>
      rw [List.map_cons, List.mem_cons, same]
      exact mem
    split
    · rw [List.map_cons, List.map_cons, List.mem_cons, List.mem_cons]
      exact .inr mem
    · rw [List.map_cons, List.mem_cons]
      exact mem.imp_right ih

/-- What becomes of a scope when names are bound in it, all of them allowed. -/
inductive Rebound (allowed : Text → Prop) (scope : Scope) : Scope → Prop where
  /-- No name is bound. -/
  | same : Rebound allowed scope scope
  /-- One more name is bound. -/
  | set {now : Scope} (before : Rebound allowed scope now) {name : Text} (may : allowed name)
    (value : Value) : Rebound allowed scope (now.set name value)

namespace Rebound

variable {allowed : Text → Prop} {scope now : Scope}

/-- The enclosing scope stays. -/
theorem outer_eq (rebound : scope.Rebound allowed now) : now.outer = scope.outer := by
  induction rebound with
  | same => rfl
  | set before may value ih => exact ih

/-- A name that may not be bound has the value it had. -/
theorem own_eq (rebound : scope.Rebound allowed now) {name : Text} (not : ¬ allowed name) :
    now.own? name = scope.own? name := by
  induction rebound with
  | same => rfl
  | @set between before bound may value ih =>
    have apart : name ≠ bound := fun same => not (same ▸ may)
    rw [← ih]
    exact lookup_bind_of_ne value between.bindings apart

/-- No name is removed. -/
theorem mem_names (rebound : scope.Rebound allowed now) {name : Text} (mem : name ∈ scope.names) :
    name ∈ now.names := by
  induction rebound with
  | same => exact mem
  | set before may value ih => exact mem_names_set value ih

/-- Where no name may be bound, the scope stays as it is. -/
theorem eq_of_forall_not (rebound : scope.Rebound allowed now) (none : ∀ name, ¬ allowed name) :
    now = scope := by
  cases rebound with
  | same => rfl
  | set before may value => exact absurd may (none _)

end Rebound

end Scope

namespace Forest

/-- What becomes of a forest when scopes are opened and names are bound, in the scopes that exist
already only as allowed. -/
structure Extends (start : Forest) (allowed : ScopeId → Text → Prop) (forest : Forest) : Prop where
  /-- No scope is removed. -/
  size : start.scopes.size ≤ forest.scopes.size
  /-- The scopes that exist already are only bound in as allowed. -/
  scope : ∀ {id : ScopeId} {old : Scope}, start.scopes[id]? = some old →
    ∃ now, forest.scopes[id]? = some now ∧ old.Rebound (allowed id) now

namespace Extends

variable {start forest : Forest} {allowed : ScopeId → Text → Prop}

/-- A forest that has not changed. -/
theorem refl : start.Extends allowed start where
  size := Nat.le_refl _
  scope found := ⟨_, found, .same⟩

/-- Opening a scope. -/
theorem add (grown : start.Extends allowed forest) (outer : Option ScopeId) :
    start.Extends allowed (forest.add outer).2 where
  size := by
    rw [Forest.size_add]
    exact Nat.le_succ_of_le grown.size
  scope {id old} found := by
    obtain ⟨now, there, rebound⟩ := grown.scope found
    refine ⟨now, ?_, rebound⟩
    have within : id < forest.scopes.size := (Array.getElem?_eq_some_iff.mp there).1
    rw [Forest.getElem_add, if_neg (Nat.ne_of_lt within)]
    exact there

/-- Binding a name in a new scope, or where it is allowed. -/
theorem set (grown : start.Extends allowed forest) {id : ScopeId} {name : Text}
    (may : start.scopes.size ≤ id ∨ allowed id name) (value : Value) :
    start.Extends allowed (forest.set id name value) where
  size := by
    rw [Forest.size_set]
    exact grown.size
  scope {index old} found := by
    obtain ⟨now, there, rebound⟩ := grown.scope found
    rw [Forest.getElem_set]
    split
    · next same =>
      have within : index < start.scopes.size := (Array.getElem?_eq_some_iff.mp found).1
      have here : allowed index name := by
        rw [same] at may
        exact may.resolve_left (Nat.not_le.mpr within)
      exact ⟨now.set name value, by rw [there]; rfl, rebound.set here value⟩
    · exact ⟨now, there, rebound⟩

/-- Binding names in a new scope. -/
theorem setAll (grown : start.Extends allowed forest) {id : ScopeId}
    (new : start.scopes.size ≤ id) (bindings : List (Text × Value)) :
    start.Extends allowed (forest.setAll id bindings) := by
  unfold Forest.setAll
  induction bindings generalizing forest with
  | nil => exact grown
  | cons binding rest ih => exact ih (grown.set (.inl new) binding.2)

/-- A scope that exists already and may not be bound in stays as it is. -/
theorem getElem_eq (grown : start.Extends allowed forest) {id : ScopeId}
    (within : id < start.scopes.size) (none : ∀ name, ¬ allowed id name) :
    forest.scopes[id]? = start.scopes[id]? := by
  have found : start.scopes[id]? = some start.scopes[id] := Array.getElem?_eq_getElem within
  obtain ⟨now, there, rebound⟩ := grown.scope found
  rw [there, found, rebound.eq_of_forall_not none]

end Extends

end Forest

/-! ## Targets -/

mutual

/-- The names an expression binds in its scope: the targets of the statements in it, but not of
those in the procedures it makes. -/
def Expr.targets : Expr → List Text
  | .absent | .ident _ | .int _ _ | .bool _ _ | .str _ _ | .null _ | .procedure _ _ _ => []
  | .unary _ _ operand => operand.targets
  | .binary _ _ left right => left.targets ++ right.targets
  | .choice _ test yes no => test.targets ++ (yes.targets ++ no.targets)
  | .call _ callee args => callee.targets ++ Expr.targetsAll args

/-- The names expressions bind in their scope. -/
def Expr.targetsAll : List Expr → List Text
  | [] => []
  | expr :: rest => expr.targets ++ Expr.targetsAll rest

/-- The names a statement binds in its scope. -/
def Stmt.targets : Stmt → List Text
  | .absent => []
  | .declare _ name value | .assign _ name value =>
    (name.map Ident.name).toList ++ value.targets
  | .giveBack _ value | .expr _ value => value.targets
  | .block _ stmts => Stmt.targetsAll stmts

/-- The names statements bind in their scope. -/
def Stmt.targetsAll : List Stmt → List Text
  | [] => []
  | stmt :: rest => stmt.targets ++ Stmt.targetsAll rest

/-- The names a block binds in its scope. -/
def Block.targets : Block → List Text
  | .absent => []
  | .braces _ stmts => Stmt.targetsAll stmts

end

/-- The names a node binds in its scope. -/
def Node.targets : Node → List Text
  | .program whole => Stmt.targetsAll whole.stmts
  | .stmt single => single.targets
  | .expr single => single.targets

/-- The targets of expressions are those of each of them. -/
theorem Expr.mem_targetsAll_iff {exprs : List Expr} {name : Text} :
    name ∈ Expr.targetsAll exprs ↔ ∃ expr ∈ exprs, name ∈ expr.targets := by
  induction exprs with
  | nil => simp [Expr.targetsAll]
  | cons expr rest ih => simp [Expr.targetsAll, ih]

/-- The targets of statements are those of each of them. -/
theorem Stmt.mem_targetsAll_iff {stmts : List Stmt} {name : Text} :
    name ∈ Stmt.targetsAll stmts ↔ ∃ stmt ∈ stmts, name ∈ stmt.targets := by
  induction stmts with
  | nil => simp [Stmt.targetsAll]
  | cons stmt rest ih => simp [Stmt.targetsAll, ih]

/-- The target of a statement is one of its targets. -/
theorem Stmt.mem_targets {stmt : Stmt} {id : Ident} (target : stmt.target? = some id) :
    id.name ∈ stmt.targets := by
  cases stmt with
  | declare | assign =>
    cases target
    exact List.mem_append_left _ List.mem_cons_self
  | _ => cases target

/-! ## Evaluations -/

/-- A task that only binds names in its scope that may be bound there. -/
def Task.Writes (may : ScopeId → Text → Prop) : Task → Prop
  | .program whole scope => ∀ name ∈ Stmt.targetsAll whole.stmts, may scope name
  | .stmt single scope => ∀ name ∈ single.targets, may scope name
  | .expr single scope => ∀ name ∈ single.targets, may scope name
  | .block whole scope => ∀ name ∈ whole.targets, may scope name
  | .call _ _ _ => True

section

variable {Tally : Type} {machine : Machine Tally} {inner : Task} {world there : World Tally}

/-- What a task starts binds in the same scope what the task does, if it is not the body of a
procedure. This may bind whatever it does in the scope that is opened for it. -/
theorem Task.Writes.start {may : ScopeId → Text → Prop} {task : Task} (writes : task.Writes may)
    (started : Task.Starts machine task world inner there)
    (fresh : ∀ name, may world.forest.scopes.size name) : inner.Writes may := by
  cases started with
  | @first expr part line scope _ _ begins visits =>
    intro name mem
    refine writes name ?_
    cases expr with
    | unary token sign operand =>
      cases begins
      exact mem
    | binary | choice | call =>
      cases begins
      exact List.mem_append_left _ mem
    | _ => cases begins
  | right => exact fun name mem => writes name (List.mem_append_right _ mem)
  | branch =>
    intro name mem
    refine writes name (List.mem_append_right _ ?_)
    split at mem
    · exact List.mem_append_left _ mem
    · exact List.mem_append_right _ mem
  | argument =>
    intro name mem
    refine writes name (List.mem_append_right _ (Expr.mem_targetsAll_iff.mpr ⟨_, ?_, mem⟩))
    exact List.mem_append_right _ List.mem_cons_self
  | application => trivial
  | @value stmt part line scope _ _ holds visits =>
    intro name mem
    refine writes name ?_
    cases stmt with
    | declare | assign =>
      cases holds
      exact List.mem_append_right _ mem
    | giveBack | expr =>
      cases holds
      exact mem
    | _ => cases holds
  | nested | inner | outermost =>
    intro name mem
    refine writes name (Stmt.mem_targetsAll_iff.mpr ⟨_, ?_, mem⟩)
    exact List.mem_append_right _ List.mem_cons_self
  | body => exact fun name _ => fresh name

/-- A call opens a scope and binds its arguments there. -/
theorem Forest.Extends.enter {start : Forest} {allowed : ScopeId → Text → Prop} {callee : Value}
    {args : List Value} {line : Int} (grown : start.Extends allowed world.forest)
    (started : Task.Starts machine (.call callee args line) world inner there) :
    start.Extends allowed there.forest := by
  cases started with
  | body => exact (grown.add _).setAll grown.size _

/-- Evaluations bind names in new scopes and, in those that exist already, as allowed. -/
def Forest.Extends.discipline (machine : Machine Tally) (start : Forest)
    (allowed : ScopeId → Text → Prop) : Discipline machine where
  may task world := start.Extends allowed world.forest ∧
    task.Writes fun id name => start.scopes.size ≤ id ∨ allowed id name
  becomes world after := start.Extends allowed world.forest → start.Extends allowed after.forest
  fine _ _ := True
  refl _ := id
  trans first second := second ∘ first
  mono _ := id
  visit _ _ visits := by
    obtain ⟨_, -, rfl⟩ := visits
    exact id
  starts may started became _ :=
    ⟨became may.1, may.2.start started fun _ => .inl may.1.size⟩
  enter _ started grown := grown.enter started
  leave became := became
  bind may target _ _ _ grown := grown.set (may.2 _ (Stmt.mem_targets target)) _
  null _ := trivial
  given _ _ _ := trivial
  bound _ _ := trivial
  builtin _ _ := trivial
  procedure _ := trivial
  returned _ _ := trivial
  unwrapped _ := trivial
  answer _ := trivial

/-- An evaluation binds its targets in its own scope, and else in new scopes only. -/
theorem Limits.evaluate_extends {limits : Limits} {host : Host} {fallback : Nat} {node : Node}
    {scope : ScopeId} {forest after : Forest} {value : Value}
    (ended : limits.evaluate host fallback node scope forest = some (value, after)) :
    forest.Extends (fun id name => id = scope ∧ name ∈ node.targets) after := by
  obtain ⟨budget, ran⟩ := evaluate_eq_some_iff.mp ended
  let allowed (id : ScopeId) (name : Text) : Prop := id = scope ∧ name ∈ node.targets
  let law : Discipline ⟨limits.meter, host⟩ := Forest.Extends.discipline _ forest allowed
  have writes :
      (node.task scope).Writes fun id name => forest.scopes.size ≤ id ∨ allowed id name := by
    cases node <;> exact fun name mem => .inr ⟨rfl, mem⟩
  have may : law.may (node.task scope) ⟨forest, limits.budget⟩ := ⟨.refl, writes⟩
  rw [← Node.run_task] at ran
  exact (law.task may ran).1 .refl

/-- A call binds in new scopes only. -/
theorem Machine.apply_extends {bound : Nat} {callee : Value} {args : List Value} {line : Int}
    {before last : World Tally} {result : Value}
    (ended : machine.apply (machine.invoke bound) callee args line before = some (result, last)) :
    before.forest.Extends (fun _ _ => False) last.forest := by
  let law := Forest.Extends.discipline machine before.forest fun _ _ => False
  have may : law.may (.call callee args line) before := ⟨.refl, trivial⟩
  exact (law.task may ended).1 .refl

/-- A call changes no scope that exists when it is made. -/
theorem Machine.apply_getElem_eq {bound : Nat} {callee : Value} {args : List Value} {line : Int}
    {before last : World Tally} {result : Value}
    (ended : machine.apply (machine.invoke bound) callee args line before = some (result, last))
    {id : ScopeId} (within : id < before.forest.scopes.size) :
    last.forest.scopes[id]? = before.forest.scopes[id]? :=
  (apply_extends ended).getElem_eq within fun _ impossible => impossible

end

namespace Limits

/-- An evaluation removes no scope and leaves every scope that exists already as it is, except its
own. There it leaves the enclosing scope as it is and every name that is no target of the node,
and it removes no name. A call leaves all scopes as they are that exist when it is made. -/
theorem evaluate_frame (limits : Limits) (host : Host) (fallback : Nat) (node : Node)
    {scope : ScopeId} {forest after : Forest} {value : Value} (within : scope < forest.scopes.size)
    (ended : limits.evaluate host fallback node scope forest = some (value, after)) :
    forest.scopes.size ≤ after.scopes.size ∧
    (∀ id < forest.scopes.size, id ≠ scope → after.scopes[id]? = forest.scopes[id]?) ∧
    after.outer? scope = forest.outer? scope ∧
    (∀ name ∉ node.targets, after.own? name scope = forest.own? name scope) ∧
    (∀ name ∈ forest.names scope, name ∈ after.names scope) ∧
    ∀ bound callee args line (before last : World Budget) result,
      Machine.apply ⟨limits.meter, host⟩ (Machine.invoke ⟨limits.meter, host⟩ bound) callee args
        line before = some (result, last) →
      ∀ id < before.forest.scopes.size, last.forest.scopes[id]? = before.forest.scopes[id]? := by
  have grown := evaluate_extends ended
  have found : forest.scopes[scope]? = some forest.scopes[scope] := Array.getElem?_eq_getElem within
  obtain ⟨now, there, rebound⟩ := grown.scope found
  refine ⟨grown.size, ?_, ?_, ?_, ?_, ?_⟩
  · intro id inside apart
    exact grown.getElem_eq inside fun name may => apart may.1
  · simp only [Forest.outer?, there, found, Option.bind_some, rebound.outer_eq]
  · intro name other
    simp only [Forest.own?, there, found, Option.bind_some]
    exact rebound.own_eq fun may => other may.2
  · intro name mem
    simp only [Forest.names, Forest.bindings, there, found, Option.map_some, Option.getD_some]
      at mem ⊢
    exact rebound.mem_names mem
  · intro bound callee args line before last result called id inside
    exact Machine.apply_getElem_eq called inside

/-- A procedure binds a name that its caller binds and one that the scope around the caller binds.
Neither variable changes, and the second is not bound in the scope of the caller either. -/
theorem evaluate_frame_shadowing :
    let forest := ((Forest.single.set 0 (utf8 "z") (.int 5)).add (some 0)).2.set 1 (utf8 "y") .null
    let node := Node.program (Program.ofText
      (utf8 "x = procedimiento() \x7b y = 3; z = 4 \x7d; x()")).program
    1 < forest.scopes.size ∧ ∃ value after,
      Limits.default.evaluate .empty 0 node 1 forest = some (value, after) ∧
      after.own? (utf8 "z") 0 = some (.int 5) ∧ after.own? (utf8 "y") 1 = some .null ∧
      after.own? (utf8 "z") 1 = none ∧ after.outer? 1 = some 0 := by
  intro forest node
  have within : 1 < forest.scopes.size := by decide
  have bounded : Limits.default.depth ≠ 0 := by decide
  obtain ⟨value, after, -, ended⟩ := eval_of_bounded (.inr bounded) .empty 0 node 1 forest
  obtain ⟨-, others, outer, own, -, -⟩ := evaluate_frame .default .empty 0 node within ended
  refine ⟨within, value, after.forest, ended, ?_, ?_, ?_, ?_⟩
  · rw [Forest.own?, others 0 (by decide) (by decide)]
    rfl
  · rw [own (utf8 "y") (by decide +kernel)]
    rfl
  · rw [own (utf8 "z") (by decide +kernel)]
    rfl
  · rw [outer]
    rfl

end Limits

end Lengua
