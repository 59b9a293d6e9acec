import Lengua.Eval
import Lengua.Proofs.Chain

/-!
# Scopes under other numbers

The number of a scope says no more than which scope is meant. Here values and scopes are moved
to other numbers, and two forests are compared in which the scopes of a known part correspond:
the second holds under the new numbers what the first holds, and nothing in the known part leads
out of it. Such a correspondence survives everything an evaluation does to a forest, when it does
the same to both.
-/

namespace Lengua

/-! ## Values -/

namespace Value

/-- The scope of a procedure, also of one on its way out of another. -/
def home? : Value → Option ScopeId
  | .procedure _ _ scope => scope
  | .returned value => value.home?
  | _ => none

/-- A value with the scope of a procedure under another number. -/
def moved (place : ScopeId → ScopeId) : Value → Value
  | .procedure params body scope => .procedure params body (scope.map place)
  | .returned value => .returned (value.moved place)
  | value => value

variable (place : ScopeId → ScopeId)

/-- A value is moved as its scope is. -/
theorem moved_congr {other : ScopeId → ScopeId} {value : Value}
    (same : ∀ id, value.home? = some id → place id = other id) :
    value.moved place = value.moved other := by
  induction value with
  | procedure params body scope =>
    cases scope with
    | none => rfl
    | some id => simp only [moved, Option.map_some, same id rfl]
  | returned value ih => rw [moved, moved, ih same]
  | _ => rfl

/-- Where every scope keeps its number, a value stays as it is. -/
theorem moved_id (value : Value) : value.moved id = value := by
  induction value with
  | procedure params body scope => rw [moved, Option.map_id_apply]
  | returned value ih => rw [moved, ih]
  | _ => rfl

/-- A value whose scope keeps its number stays as it is. -/
theorem moved_eq_self {value : Value} (kept : ∀ id, value.home? = some id → place id = id) :
    value.moved place = value :=
  (moved_congr place kept).trans value.moved_id

/-- A value without a scope stays as it is. -/
theorem moved_of_home {value : Value} (none : value.home? = none) : value.moved place = value :=
  moved_eq_self place fun id there => by
    rw [none] at there
    cases there

/-- The type of a value stays. -/
@[simp] theorem type_moved (value : Value) : (value.moved place).type = value.type := by
  cases value <;> rfl

/-- The truth of a value stays. -/
@[simp] theorem isTruthy_moved (value : Value) :
    (value.moved place).isTruthy = value.isTruthy := by
  cases value <;> rfl

/-- A signal stays one. -/
@[simp] theorem isSignal_moved (value : Value) :
    (value.moved place).isSignal = value.isSignal := by
  cases value <;> rfl

/-- A value leaves a procedure as before. -/
@[simp] theorem unwrapped_moved (value : Value) :
    (value.moved place).unwrapped = value.unwrapped.moved place := by
  cases value <;> rfl

/-- What leaves a procedure has the scope it had. -/
theorem home_unwrapped {value : Value} {id : ScopeId} (found : value.unwrapped.home? = some id) :
    value.home? = some id := by
  cases value with
  | returnedNothing => cases found
  | _ => exact found

/-! ### Operations -/

/-- Signs look at no scope. -/
theorem unary_moved (sign : Text) (operand : Value) (line : Int) :
    (operand.moved place).unary sign line = operand.unary sign line := by
  unfold unary
  rw [isTruthy_moved, type_moved]
  cases operand <;> rfl

/-- The value of a sign before an operand has no scope. -/
theorem home_unary (sign : Text) (operand : Value) (line : Int) :
    (operand.unary sign line).home? = none := by
  unfold unary
  split
  · rfl
  split
  · split <;> rfl
  · rfl

/-- Equality looks at no scope. -/
theorem ofEquals_moved (operation : Operation) (left right : Value) :
    ofEquals? operation (left.moved place) (right.moved place) =
      ofEquals? operation left right := by
  cases operation with
  | equal | notEqual => cases left <;> cases right <;> rfl
  | _ => rfl

/-- Operations look at no scope. -/
theorem binary_moved (sign : Text) (left right : Value) (line : Int) :
    binary sign (left.moved place) (right.moved place) line = binary sign left right line := by
  unfold binary
  simp only [type_moved]
  cases Operation.ofSign? sign with
  | none => cases left <;> cases right <;> rfl
  | some operation =>
    have equals := ofEquals_moved place operation left right
    -- Two integers and two strings have operations of their own; all other pairs are compared.
    cases left <;> cases right
    case int.int a b => rfl
    case str.str a b => rfl
    all_goals exact congrArg (fun found => ite _ (Option.getD found _) _) equals

/-- The value of an operation has no scope. -/
theorem home_binary (sign : Text) (left right : Value) (line : Int) :
    (binary sign left right line).home? = none := by
  have refused (found : Option Value) (fault : Fault) (flat : ∀ value ∈ found, value.home? = none) :
      (found.getD (.error fault line)).home? = none := by
    cases found with
    | none => rfl
    | some value => exact flat value rfl
  have strings (operation : Operation) (a b : Text) :
      ∀ value ∈ ofStrings? operation a b, value.home? = none := by
    cases operation <;> rintro _ ⟨⟩ <;> rfl
  have equals (operation : Operation) (a b : Value) :
      ∀ value ∈ ofEquals? operation a b, value.home? = none := by
    unfold ofEquals?
    split <;> rintro _ ⟨⟩ <;> rfl
  unfold binary
  dsimp only
  split
  · unfold ofIntegers
    split
    case h_4 => split <;> rfl
    all_goals rfl
  · exact refused _ _ (strings _ _ _)
  · split
    · exact refused _ _ (equals _ _ _)
    · rfl
  · split <;> rfl

/-- The length function looks at no scope. -/
theorem length_moved (args : List Value) (line : Int) :
    length (args.map (Value.moved place)) line = length args line := by
  match args with
  | [] => rfl
  | [value] => cases value <;> rfl
  | first :: second :: rest => simp [length]

/-- The length of a value has no scope. -/
theorem home_length (args : List Value) (line : Int) : (length args line).home? = none := by
  unfold length
  split <;> rfl

end Value

/-! ## Scopes -/

namespace Scope

/-- A scope leads to the one around it and to those of the procedures it binds. -/
def LeadsTo (scope : Scope) (id : ScopeId) : Prop :=
  scope.outer = some id ∨ ∃ binding ∈ scope.bindings, binding.2.home? = some id

/-- A scope with all it leads to under other numbers. -/
def moved (place : ScopeId → ScopeId) (scope : Scope) : Scope :=
  ⟨scope.bindings.map fun binding => (binding.1, binding.2.moved place), scope.outer.map place⟩

variable (place : ScopeId → ScopeId)

/-- A scope that leads to none with a new number stays as it is. -/
theorem moved_eq_self {scope : Scope} (kept : ∀ id, scope.LeadsTo id → place id = id) :
    scope.moved place = scope := by
  obtain ⟨bindings, outer⟩ := scope
  have values : bindings.map (fun binding => (binding.1, binding.2.moved place)) =
      bindings.map id := by
    apply List.map_congr_left
    intro binding mem
    have same : binding.2.moved place = binding.2 :=
      Value.moved_eq_self place fun id home => kept id (.inr ⟨binding, mem, home⟩)
    rw [same]
    rfl
  have around : outer.map place = outer := by
    cases outer with
    | none => rfl
    | some id => rw [Option.map_some, kept id (.inl rfl)]
  rw [moved, values, List.map_id, around]

/-- Binding a moved value. -/
theorem set_moved (scope : Scope) (name : Text) (value : Value) :
    (scope.moved place).set name (value.moved place) = (scope.set name value).moved place :=
  congrArg (Scope.mk · _) (bind_map (Value.moved place) name value scope.bindings)

/-- A name in a moved scope. -/
theorem own_moved (scope : Scope) (name : Text) :
    (scope.moved place).own? name = (scope.own? name).map (Value.moved place) :=
  lookup_map (Value.moved place) name scope.bindings

/-- What a scope leads to after a name is bound it led to before, or it is the value's scope. -/
theorem leadsTo_of_set {scope : Scope} {name : Text} {value : Value} {id : ScopeId}
    (leads : (scope.set name value).LeadsTo id) : scope.LeadsTo id ∨ value.home? = some id := by
  rcases leads with outer | ⟨binding, mem, home⟩
  · exact .inl (.inl outer)
  · rcases mem_bind mem with rfl | old
    · exact .inr home
    · exact .inl (.inr ⟨binding, old, home⟩)

/-- A scope leads to that of a procedure it binds. -/
theorem leadsTo_of_own {scope : Scope} {name : Text} {value : Value} {id : ScopeId}
    (found : scope.own? name = some value) (home : value.home? = some id) : scope.LeadsTo id := by
  obtain ⟨before, after, split, -⟩ := List.lookup_eq_some_iff.mp found
  refine .inr ⟨(name, value), ?_, home⟩
  rw [split]
  exact List.mem_append_right before List.mem_cons_self

end Scope

/-- A way of giving scopes other numbers: those from a base on move up by a gap. -/
structure Shift where
  /-- The first number that changes. -/
  base : Nat
  /-- How far the numbers move. -/
  gap : Nat

namespace Shift

/-- The new number of a scope. -/
def place (shift : Shift) (id : ScopeId) : ScopeId :=
  if id < shift.base then id else id + shift.gap

/-- Every scope keeps its number. -/
def still : Shift := ⟨0, 0⟩

/-- Where every scope keeps its number, the new numbers are the old ones. -/
theorem place_still : still.place = id := by
  funext id
  simp [place, still]

/-- Values stay as they are. -/
theorem value_moved_still : Value.moved still.place = id := by
  rw [place_still]
  exact funext Value.moved_id

/-- Scopes stay as they are. -/
theorem scope_moved_still : Scope.moved still.place = id :=
  funext fun scope => scope.moved_eq_self _ fun id _ => by
    rw [place_still]
    rfl

variable (shift : Shift)

/-- A scope below the base keeps its number. -/
theorem place_of_lt {id : ScopeId} (below : id < shift.base) : shift.place id = id := if_pos below

/-- A scope from the base on moves up. -/
theorem place_of_le {id : ScopeId} (above : shift.base ≤ id) :
    shift.place id = id + shift.gap := if_neg (Nat.not_lt.mpr above)

/-- Different scopes have different new numbers. -/
theorem place_ne {one other : Nat} (apart : one ≠ other) :
    shift.place one ≠ shift.place other := by
  intro same
  have same : (if one < shift.base then one else one + shift.gap) =
    if other < shift.base then other else other + shift.gap := same
  split at same <;> split at same <;> omega

end Shift

/-! ## Forests -/

/-- Binding names opens no scope. -/
theorem Forest.size_setAll (forest : Forest) (id : ScopeId) (bindings : List (Text × Value)) :
    (forest.setAll id bindings).scopes.size = forest.scopes.size := by
  unfold Forest.setAll
  induction bindings generalizing forest with
  | nil => rfl
  | cons binding rest ih =>
    rw [List.foldl_cons, ih, Forest.size_set]

/-- The scopes of a known part of one forest, and of another one under their new numbers, hold the
same, and nothing leads out of the known part. -/
structure Forest.Carried (shift : Shift) (known : ScopeId → Prop) (first second : Forest) :
    Prop where
  /-- All scopes from the base on are opened in step. -/
  base : shift.base ≤ first.scopes.size
  /-- The second forest has as many more scopes as numbers move up. -/
  size : second.scopes.size = first.scopes.size + shift.gap
  /-- The second forest holds what the first holds. -/
  scope : ∀ {id}, known id →
    second.scopes[shift.place id]? = first.scopes[id]?.map (Scope.moved shift.place)
  /-- Known scopes lead to known scopes. -/
  leads : ∀ {id next scope}, known id → first.scopes[id]? = some scope → scope.LeadsTo next →
    known next

namespace Forest.Carried

variable {shift : Shift} {known : ScopeId → Prop} {first second : Forest}

/-- The next scope to be opened. -/
theorem place_size (carried : first.Carried shift known second) :
    shift.place first.scopes.size = second.scopes.size := by
  rw [shift.place_of_le carried.base, carried.size]

/-- The scope around a known one. -/
theorem outer (carried : first.Carried shift known second) {id : ScopeId} (there : known id) :
    second.outer? (shift.place id) = (first.outer? id).map shift.place := by
  rw [outer?, outer?, carried.scope there]
  cases first.scopes[id]? <;> rfl

/-- The scope around a known one is known. -/
theorem known_outer (carried : first.Carried shift known second) {id next : ScopeId}
    (there : known id) (found : first.outer? id = some next) : known next := by
  obtain ⟨scope, here, outer⟩ := Option.bind_eq_some_iff.mp found
  exact carried.leads there here (.inl outer)

/-- A name in a known scope. -/
theorem own (carried : first.Carried shift known second) {id : ScopeId} (there : known id)
    (name : Text) :
    second.own? name (shift.place id) = (first.own? name id).map (Value.moved shift.place) := by
  rw [own?, own?, carried.scope there]
  cases first.scopes[id]? with
  | none => rfl
  | some scope => exact scope.own_moved shift.place name

/-- What is found along the chain of a known scope, within any number of steps. -/
theorem findSome (carried : first.Carried shift known second) (bound : Nat) {id : Option ScopeId}
    (there : ∀ found, id = some found → known found) (name : Text) :
    (second.chainWithin bound (id.map shift.place)).findSome? (second.own? name) =
      ((first.chainWithin bound id).findSome? (first.own? name)).map
        (Value.moved shift.place) := by
  induction bound generalizing id with
  | zero => rfl
  | succ bound ih =>
    cases id with
    | none => rfl
    | some id =>
      have here : known id := there id rfl
      have further := ih fun next found => carried.known_outer here found
      rw [Option.map_some, chainWithin, chainWithin, List.findSome?_cons, List.findSome?_cons,
        carried.outer here, carried.own here, further]
      cases first.own? name id <;> rfl

/-- The value of a name seen from a known scope. -/
theorem get (carried : first.Carried shift known second) {id : ScopeId} (there : known id)
    (name : Text) :
    second.get? (shift.place id) name = (first.get? id name).map (Value.moved shift.place) := by
  have enough : first.scopes.size ≤ second.scopes.size := by
    rw [carried.size]
    exact Nat.le_add_right _ _
  rw [← first.findSome_chainWithin enough]
  exact carried.findSome second.scopes.size (fun _ same => Option.some.inj same ▸ there) name

/-- What a name stands for has a known scope. -/
theorem known_get (carried : first.Carried shift known second) {id : ScopeId} (there : known id)
    {name : Text} {value : Value} (found : first.get? id name = some value) {home : ScopeId}
    (isHome : value.home? = some home) : known home := by
  have along (bound : Nat) {start : Option ScopeId}
      (starts : ∀ id, start = some id → known id) :
      ∀ id ∈ first.chainWithin bound start, known id := by
    induction bound generalizing start with
    | zero => exact List.forall_mem_nil _
    | succ bound ih =>
      cases start with
      | none => exact List.forall_mem_nil _
      | some id =>
        have here : known id := starts id rfl
        refine List.forall_mem_cons.mpr ⟨here, ih fun next outer => ?_⟩
        exact carried.known_outer here outer
  obtain ⟨holder, mem, own⟩ := List.exists_of_findSome?_eq_some found
  obtain ⟨scope, atHolder, bound⟩ := Option.bind_eq_some_iff.mp own
  have holds : known holder := along _ (fun _ same => Option.some.inj same ▸ there) holder mem
  exact carried.leads holds atHolder (Scope.leadsTo_of_own bound isHome)

/-- Binding a name in a known scope. -/
theorem set (carried : first.Carried shift known second) (id : ScopeId) (name : Text)
    {value : Value} (inside : ∀ home, value.home? = some home → known home) :
    (first.set id name value).Carried shift known
      (second.set (shift.place id) name (value.moved shift.place)) where
  base := by
    rw [Forest.size_set]
    exact carried.base
  size := by
    rw [Forest.size_set, Forest.size_set]
    exact carried.size
  scope {other} there := by
    rw [Forest.getElem_set, Forest.getElem_set, carried.scope there]
    by_cases same : id = other
    · rw [if_pos same, if_pos (congrArg shift.place same)]
      cases first.scopes[other]? with
      | none => rfl
      | some scope => exact congrArg some (scope.set_moved shift.place name value)
    · rw [if_neg same, if_neg (shift.place_ne same)]
  leads {other next scope} there found leads := by
    rw [Forest.getElem_set] at found
    split at found
    · obtain ⟨old, before, rfl⟩ := Option.map_eq_some_iff.mp found
      rcases Scope.leadsTo_of_set leads with kept | home
      · exact carried.leads there before kept
      · exact inside next home
    · exact carried.leads there found leads

/-- Binding names in a known scope. -/
theorem setAll (carried : first.Carried shift known second) {bindings : List (Text × Value)}
    (inside : ∀ binding ∈ bindings, ∀ home, binding.2.home? = some home → known home)
    (id : ScopeId) :
    (first.setAll id bindings).Carried shift known (second.setAll (shift.place id)
      (bindings.map fun binding => (binding.1, binding.2.moved shift.place))) := by
  unfold Forest.setAll
  induction bindings generalizing first second with
  | nil => exact carried
  | cons binding rest ih =>
    have bound := carried.set id binding.1 (inside binding List.mem_cons_self)
    exact ih bound fun later mem => inside later (List.mem_cons_of_mem _ mem)

/-- Opening a scope inside a known one. -/
theorem add (carried : first.Carried shift known second) {outer : Option ScopeId}
    (inside : ∀ id, outer = some id → known id) :
    (first.add outer).2.Carried shift (fun id => known id ∨ id = first.scopes.size)
      (second.add (outer.map shift.place)).2 where
  base := by
    rw [Forest.size_add]
    exact Nat.le_succ_of_le carried.base
  size := by
    rw [Forest.size_add, Forest.size_add, carried.size]
    omega
  scope {id} there := by
    rw [Forest.getElem_add, Forest.getElem_add, ← carried.place_size]
    by_cases fresh : id = first.scopes.size
    · rw [if_pos fresh, if_pos (congrArg shift.place fresh)]
      rfl
    · rw [if_neg fresh, if_neg (shift.place_ne fresh)]
      exact carried.scope (there.resolve_right fresh)
  leads {id next scope} there found leads := by
    rw [Forest.getElem_add] at found
    split at found
    · cases found
      rcases leads with around | ⟨binding, mem, -⟩
      · exact .inl (inside next around)
      · cases mem
    · next old => exact .inl (carried.leads (there.resolve_right old) found leads)

end Forest.Carried

end Lengua
