import Lengua.Proofs.Chain

/-!
# What a forest remembers

A forest is made by opening scopes and binding names in them. A `Record` is the list of what was
done, in which only scopes are mentioned that had been opened by then, and says by itself what each
scope binds: a name has the value that it was bound to last. The forest made in this way agrees with
its record. So it does not matter whether a scope was opened before or after something was bound in
one around it, and a new binding is seen from just those scopes that do not shadow it.
-/

namespace Lengua

/-! ## Scopes in order -/

namespace Scope

/-- Binding a name keeps the names in increasing order. -/
theorem pairwise_bind (name : Text) (value : Value) {bindings : List (Text × Value)}
    (ordered : (bindings.map Prod.fst).Pairwise (· < ·)) :
    ((bind name value bindings).map Prod.fst).Pairwise (· < ·) := by
  induction bindings with
  | nil => exact List.pairwise_singleton _ name
  | cons binding rest ih =>
    obtain ⟨key, old⟩ := binding
    rw [List.map_cons, List.pairwise_cons] at ordered
    obtain ⟨first, others⟩ := ordered
    unfold bind
    split
    · next same =>
      subst same
      exact List.pairwise_cons.mpr ⟨first, others⟩
    · next apart =>
      split
      · next before =>
        refine List.pairwise_cons.mpr ⟨?_, List.pairwise_cons.mpr ⟨first, others⟩⟩
        intro other mem
        rcases List.mem_cons.mp mem with rfl | later
        · exact before
        · exact List.lt_trans before (first other later)
      · next notBefore =>
        have after : key < name :=
          Std.lt_of_le_of_ne (List.not_lt.mp notBefore) (Ne.symm apart)
        refine List.pairwise_cons.mpr ⟨?_, ih others⟩
        intro other mem
        obtain ⟨bound, isBound, rfl⟩ := List.mem_map.mp mem
        rcases mem_bind isBound with rfl | old
        · exact after
        · exact first bound.1 (List.mem_map_of_mem old)

/-- The names of a scope are those that have a value in it. -/
theorem mem_names_iff {scope : Scope} {name : Text} :
    name ∈ scope.names ↔ ∃ value, scope.own? name = some value := by
  rw [← Option.isSome_iff_exists, own?, List.lookup_isSome_iff, names, List.mem_map]
  simp only [beq_iff_eq]
  exact exists_congr fun binding => and_congr_right fun _ => eq_comm

end Scope

namespace Forest

variable {forest : Forest}

/-- In every scope the names are in increasing order. -/
def Ordered (forest : Forest) : Prop :=
  ∀ (id : ScopeId) (scope : Scope), forest.scopes[id]? = some scope →
    scope.names.Pairwise (· < ·)

/-- Opening a scope keeps the names in order. -/
theorem Ordered.add (ordered : forest.Ordered) (outer : Option ScopeId) :
    (forest.add outer).2.Ordered := by
  intro id scope found
  rw [Forest.getElem_add] at found
  split at found
  · cases found
    exact .nil
  · exact ordered id scope found

/-- Binding a name keeps the names in order. -/
theorem Ordered.set (ordered : forest.Ordered) (target : ScopeId) (name : Text) (value : Value) :
    (forest.set target name value).Ordered := by
  intro id scope found
  rw [Forest.getElem_set] at found
  split at found
  · obtain ⟨before, old, rfl⟩ := Option.map_eq_some_iff.mp found
    exact Scope.pairwise_bind name value (ordered id before old)
  · exact ordered id scope found

/-- The names of a scope are in increasing order. -/
theorem Ordered.names (ordered : forest.Ordered) (id : ScopeId) :
    (forest.names id).Pairwise (· < ·) := by
  rw [Forest.names, bindings]
  cases found : forest.scopes[id]? with
  | none => exact .nil
  | some scope => exact ordered id scope found

/-- The names of a scope are those that it gives a value. -/
theorem mem_names_iff {id : ScopeId} {name : Text} :
    name ∈ forest.names id ↔ ∃ value, forest.own? name id = some value := by
  rw [Forest.names, bindings, own?]
  cases forest.scopes[id]? with
  | none => simp
  | some scope => exact Scope.mem_names_iff

end Forest

/-! ## Records -/

/-- What was done to make a forest of so many scopes, the last first. Only scopes that had been
opened before are mentioned. -/
inductive Record : Nat → Type where
  /-- Nothing was done. -/
  | empty : Record 0
  /-- A scope was opened, maybe inside another one. -/
  | add {size : Nat} (before : Record size) (outer : Option (Fin size)) : Record (size + 1)
  /-- A name was bound in a scope. -/
  | set {size : Nat} (before : Record size) (target : Fin size) (name : Text) (value : Value) :
    Record size

namespace Record

/-- The forest that is made. -/
def forest {size : Nat} : Record size → Forest
  | empty => .empty
  | add before outer => (before.forest.add (outer.map Fin.val)).2
  | set before target name value => before.forest.set target name value

/-- The scope that a scope was opened in. -/
def outer? {size : Nat} : Record size → ScopeId → Option ScopeId
  | empty, _ => none
  | @add opened before outer, id =>
    if id = opened then outer.map Fin.val else before.outer? id
  | set before _ _ _, id => before.outer? id

/-- All that was bound, with its scope, the last first. -/
def bindings {size : Nat} : Record size → List ((ScopeId × Text) × Value)
  | empty => []
  | add before _ => before.bindings
  | set before target name value => ((target.val, name), value) :: before.bindings

/-- The value that a name was bound to last in a scope itself. -/
def latest? {size : Nat} (record : Record size) (id : ScopeId) (name : Text) : Option Value :=
  record.bindings.lookup (id, name)

variable {size : Nat}

/-- A name was bound in a scope if it has a latest value there. -/
theorem exists_latest_iff {record : Record size} {id : ScopeId} {name : Text} :
    (∃ value, record.latest? id name = some value) ↔
      ∃ value, ((id, name), value) ∈ record.bindings := by
  rw [← Option.isSome_iff_exists, latest?, List.lookup_isSome_iff]
  simp only [beq_iff_eq]
  constructor
  · rintro ⟨⟨key, value⟩, mem, rfl⟩
    exact ⟨value, mem⟩
  · rintro ⟨value, mem⟩
    exact ⟨_, mem, rfl⟩

/-- The forest has as many scopes as were opened, so that a new one gets the next number. -/
theorem size_forest (record : Record size) : record.forest.scopes.size = size := by
  induction record with
  | empty => rfl
  | add before outer ih => rw [forest, Forest.size_add, ih]
  | set before target name value ih => rw [forest, Forest.size_set, ih]

/-- A scope of the forest lies in the one that it was opened in. -/
theorem outer_forest (record : Record size) (id : ScopeId) :
    record.forest.outer? id = record.outer? id := by
  induction record with
  | empty => rfl
  | add before outer ih => rw [forest, Forest.outer_add, before.size_forest, ih, outer?]
  | set before target name value ih => rw [forest, Forest.outer_set, ih, outer?]

/-- A scope of the forest gives a name the value that it was bound to last. -/
theorem own_forest (record : Record size) (name : Text) (id : ScopeId) :
    record.forest.own? name id = record.latest? id name := by
  induction record with
  | empty => rfl
  | add before outer ih =>
    rw [forest, Forest.own_add, ih]
    rfl
  | set before target bound value ih =>
    rw [forest, latest?, bindings, List.lookup_cons]
    by_cases same : id = target ∧ name = bound
    · obtain ⟨rfl, rfl⟩ := same
      have within : target < before.forest.scopes.size := by
        rw [before.size_forest]
        exact target.isLt
      rw [Forest.own_set_self within, beq_self_eq_true]
    · have other : ((id, name) == (target.val, bound)) = false :=
        beq_false_of_ne fun equal => same (Prod.mk.inj equal)
      have apart : bound ≠ name ∨ target.val ≠ id :=
        (not_and_or.mp same).symm.imp Ne.symm Ne.symm
      rw [Forest.own_set_of_ne apart, ih, other]
      rfl

/-- The names of every scope of the forest are in order. -/
theorem ordered_forest (record : Record size) : record.forest.Ordered := by
  induction record with
  | empty =>
    intro id scope found
    cases found
  | add before outer ih => exact ih.add _
  | set before target name value ih => exact ih.set _ name value

/-- A forest agrees with the record of how it was made. Its scopes lie in those that they were
opened in. A name stands for the value that it was bound to last in the first scope on the way
outward that it was ever bound in, and for nothing if there is none. The names of a scope are in
strictly increasing order, and are those that were bound in the scope itself. And one more binding
makes no difference to what another name stands for, or any name where its scope is not on the way
outward. -/
theorem forest_agrees (record : Record size) (id : ScopeId) (name : Text) :
    record.forest.outer? id = record.outer? id ∧
    (∀ value, record.forest.get? id name = some value ↔
      ∃ steps holder, record.forest.outward steps id = some holder ∧
        record.latest? holder name = some value ∧
        ∀ fewer < steps, ∀ nearer, record.forest.outward fewer id = some nearer →
          record.latest? nearer name = none) ∧
    (record.forest.get? id name = none ↔
      ∀ steps holder, record.forest.outward steps id = some holder →
        record.latest? holder name = none) ∧
    (record.forest.contains id name = true ↔
      ∃ value, record.forest.get? id name = some value) ∧
    (record.forest.names id).Pairwise (· < ·) ∧
    (name ∈ record.forest.names id ↔ ∃ value, ((id, name), value) ∈ record.bindings) ∧
    ∀ target bound value,
      (bound ≠ name ∨ ∀ steps, record.forest.outward steps id ≠ some target.val) →
        (record.set target bound value).forest.get? id name = record.forest.get? id name := by
  refine ⟨record.outer_forest id, fun value => ?_, ?_, Option.isSome_iff_exists,
    record.ordered_forest.names id, ?_, fun target bound value unseen =>
      Forest.get_set_of_unseen unseen value⟩
  · simp only [Forest.get_eq_some_iff, own_forest]
  · simp only [Forest.get_eq_none_iff, own_forest]
  · simp only [Forest.mem_names_iff, own_forest, exists_latest_iff]

/-- A scope sees what is bound around it later than it was opened. -/
example : (((empty.add none).add (some 0)).set 0 (utf8 "x") (.int 5)).forest.get? 1 (utf8 "x") =
    some (.int 5) := rfl

end Record

end Lengua
