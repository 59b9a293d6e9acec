import Lengua.Value

/-!
# Scopes

A scope binds names to values, and may lie inside another. All scopes of a run stand
in one forest, numbered in the order they were opened, and are never removed: a
procedure keeps its scope by number and sees what is bound there later. A look-up
follows the chain of enclosing scopes; a binding is always made in the scope itself.
The bindings of a scope are kept in increasing bytewise order of their names.
-/

namespace Lengua

/-- The bindings of one scope and the scope around it. -/
structure Scope where
  /-- Names and values, in increasing order of the names. -/
  bindings : List (Text × Value)
  /-- The enclosing scope. -/
  outer : Option ScopeId

namespace Scope

/-- Binds a name in an ordered list of bindings, replacing what it was bound to. -/
def bind (name : Text) (value : Value) : List (Text × Value) → List (Text × Value)
  | [] => [(name, value)]
  | (key, old) :: rest =>
    if name = key then (name, value) :: rest
    else if name < key then (name, value) :: (key, old) :: rest
    else (key, old) :: bind name value rest

/-- A name has the value it was bound to last. -/
theorem lookup_bind_self (name : Text) (value : Value) (bindings : List (Text × Value)) :
    (bind name value bindings).lookup name = some value := by
  induction bindings with
  | nil => exact List.lookup_cons_self
  | cons binding rest ih =>
    obtain ⟨key, old⟩ := binding
    unfold bind
    split
    · exact List.lookup_cons_self
    split
    · exact List.lookup_cons_self
    · next other _ =>
      have apart : (name == key) = false := by simpa using other
      rw [List.lookup_cons, apart]
      exact ih

/-- Binding a name leaves the others as they were. -/
theorem lookup_bind_of_ne {name other : Text} (value : Value) (bindings : List (Text × Value))
    (apart : other ≠ name) : (bind name value bindings).lookup other = bindings.lookup other := by
  have missed : (other == name) = false := by simpa using apart
  induction bindings with
  | nil => rw [bind, List.lookup_cons, missed]
  | cons binding rest ih =>
    obtain ⟨key, old⟩ := binding
    unfold bind
    split
    · next same =>
      subst same
      rw [List.lookup_cons, List.lookup_cons, missed]
    split
    · rw [List.lookup_cons, missed]
    · rw [List.lookup_cons, List.lookup_cons, ih]

/-- What is bound in a scope is an old binding or the new one. -/
theorem mem_bind {name : Text} {value : Value} {bindings : List (Text × Value)}
    {binding : Text × Value} (mem : binding ∈ bind name value bindings) :
    binding = (name, value) ∨ binding ∈ bindings := by
  induction bindings with
  | nil => exact .inl (List.mem_singleton.mp mem)
  | cons head rest ih =>
    obtain ⟨key, old⟩ := head
    unfold bind at mem
    split at mem
    · exact (List.mem_cons.mp mem).imp_right (List.mem_cons_of_mem _)
    split at mem
    · exact List.mem_cons.mp mem
    · rcases List.mem_cons.mp mem with same | later
      · exact .inr (same ▸ List.mem_cons_self)
      · exact (ih later).imp_right (List.mem_cons_of_mem _)

/-- Binding goes along with a change of all values. -/
theorem bind_map (change : Value → Value) (name : Text) (value : Value)
    (bindings : List (Text × Value)) :
    bind name (change value) (bindings.map fun binding => (binding.1, change binding.2)) =
      (bind name value bindings).map fun binding => (binding.1, change binding.2) := by
  induction bindings with
  | nil => rfl
  | cons binding rest ih =>
    simp only [List.map_cons, bind]
    split
    · rfl
    split
    · rfl
    · rw [ih, List.map_cons]

/-- A look-up goes along with a change of all values. -/
theorem lookup_map (change : Value → Value) (name : Text) (bindings : List (Text × Value)) :
    (bindings.map fun binding => (binding.1, change binding.2)).lookup name =
      (bindings.lookup name).map change := by
  induction bindings with
  | nil => rfl
  | cons binding rest ih =>
    rw [List.map_cons, List.lookup_cons, List.lookup_cons, ih]
    split <;> rfl

/-- The value of a name in the scope itself. -/
def own? (scope : Scope) (name : Text) : Option Value := scope.bindings.lookup name

/-- The scope with a name bound. -/
def set (scope : Scope) (name : Text) (value : Value) : Scope :=
  { scope with bindings := bind name value scope.bindings }

/-- The names bound in the scope itself, in increasing order. -/
def names (scope : Scope) : List Text := scope.bindings.map Prod.fst

end Scope

/-- All scopes of a run. -/
structure Forest where
  /-- The scopes by number. -/
  scopes : Array Scope

namespace Forest

/-- The forest with no scope. -/
def empty : Forest := ⟨#[]⟩

/-- A forest with one scope, empty and inside no other. -/
def single : Forest := ⟨#[⟨[], none⟩]⟩

/-- Opens an empty scope and gives its number. -/
def add (forest : Forest) (outer : Option ScopeId) : ScopeId × Forest :=
  (forest.scopes.size, ⟨forest.scopes.push ⟨[], outer⟩⟩)

/-- Binds a name in a scope. -/
def set (forest : Forest) (id : ScopeId) (name : Text) (value : Value) : Forest :=
  ⟨forest.scopes.modify id (·.set name value)⟩

/-- Binds names in a scope, the first first. -/
def setAll (forest : Forest) (id : ScopeId) (bindings : List (Text × Value)) : Forest :=
  bindings.foldl (fun forest binding => forest.set id binding.1 binding.2) forest

/-- The scope around a scope. -/
def outer? (forest : Forest) (id : ScopeId) : Option ScopeId := forest.scopes[id]?.bind Scope.outer

/-- The first `bound` scopes met from a scope outward. -/
def chainWithin (forest : Forest) : Nat → Option ScopeId → List ScopeId
  | 0, _ => []
  | _, none => []
  | bound + 1, some id => id :: forest.chainWithin bound (forest.outer? id)

/-- A scope and those around it, innermost first. Each lies in one opened before, so there are
no more of them than scopes. -/
def chain (forest : Forest) (id : Option ScopeId) : List ScopeId :=
  forest.chainWithin forest.scopes.size id

/-- The value of a name in one scope. -/
def own? (forest : Forest) (name : Text) (id : ScopeId) : Option Value :=
  forest.scopes[id]?.bind (·.own? name)

/-- The value of a name in the innermost scope of the chain that binds it. -/
def get? (forest : Forest) (id : ScopeId) (name : Text) : Option Value :=
  (forest.chain (some id)).findSome? (forest.own? name)

/-- Whether a name is bound somewhere along the chain. -/
def contains (forest : Forest) (id : ScopeId) (name : Text) : Bool := (forest.get? id name).isSome

/-- The bindings of one scope, in increasing order of the names. -/
def bindings (forest : Forest) (id : ScopeId) : List (Text × Value) :=
  (forest.scopes[id]?.map Scope.bindings).getD []

/-- The names bound in one scope, in increasing order. -/
def names (forest : Forest) (id : ScopeId) : List Text := (forest.bindings id).map Prod.fst

/-! ## Changes -/

variable {forest : Forest}

/-- Opening a scope adds one. -/
theorem size_add (outer : Option ScopeId) :
    (forest.add outer).2.scopes.size = forest.scopes.size + 1 := Array.size_push _

/-- Binding a name opens no scope. -/
theorem size_set (target : ScopeId) (name : Text) (value : Value) :
    (forest.set target name value).scopes.size = forest.scopes.size := Array.size_modify

/-- A scope is empty when it is opened, and the others stay. -/
theorem getElem_add (outer : Option ScopeId) (id : ScopeId) :
    (forest.add outer).2.scopes[id]? =
      if id = forest.scopes.size then some ⟨[], outer⟩ else forest.scopes[id]? :=
  Array.getElem?_push

/-- Binding a name changes the scope it is bound in. -/
theorem getElem_set (target : ScopeId) (name : Text) (value : Value) (id : ScopeId) :
    (forest.set target name value).scopes[id]? =
      if target = id then forest.scopes[id]?.map (·.set name value) else forest.scopes[id]? :=
  Array.getElem?_modify

/-- A scope lies inside the one that it was opened in. -/
theorem outer_add (outer : Option ScopeId) (id : ScopeId) : (forest.add outer).2.outer? id =
    if id = forest.scopes.size then outer else forest.outer? id := by
  rw [outer?, getElem_add]
  split
  · rfl
  · rfl

/-- Binding a name leaves every scope where it is. -/
theorem outer_set (target : ScopeId) (name : Text) (value : Value) (id : ScopeId) :
    (forest.set target name value).outer? id = forest.outer? id := by
  rw [outer?, outer?, getElem_set]
  split
  · cases forest.scopes[id]? <;> rfl
  · rfl

/-- A scope binds nothing when it is opened. -/
theorem own_add (outer : Option ScopeId) (name : Text) (id : ScopeId) :
    (forest.add outer).2.own? name id = forest.own? name id := by
  rw [own?, own?, getElem_add]
  split
  · next new =>
    rw [new, Array.getElem?_eq_none (Nat.le_refl _)]
    rfl
  · rfl

/-- A name has the value that it was bound to last. -/
theorem own_set_self {target : ScopeId} (within : target < forest.scopes.size) (name : Text)
    (value : Value) : (forest.set target name value).own? name target = some value := by
  rw [own?, getElem_set, if_pos rfl, Array.getElem?_eq_getElem within]
  exact Scope.lookup_bind_self name value _

/-- Binding a name in a scope changes no other name and no other scope. -/
theorem own_set_of_ne {target id : ScopeId} {bound name : Text}
    (apart : bound ≠ name ∨ target ≠ id) (value : Value) :
    (forest.set target bound value).own? name id = forest.own? name id := by
  rw [own?, own?, getElem_set]
  split
  · next same =>
    have other : bound ≠ name := apart.resolve_right (not_not_intro same)
    cases forest.scopes[id]? with
    | none => rfl
    | some scope => exact Scope.lookup_bind_of_ne value scope.bindings (Ne.symm other)
  · rfl

end Forest

end Lengua
