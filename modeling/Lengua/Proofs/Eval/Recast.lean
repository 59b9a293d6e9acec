import Lengua.Eval
import Lengua.Proofs.Recast

/-!
# Values and scopes with other tokens

What a recasting of trees does to values: the bodies of procedures are recast and the
lines of errors follow. Scopes are recast by their values. Every operation on values and
on scopes commutes with it, because none looks at a token or a line: the type of a value,
its truth, whether it is a signal, and what it is bound to stay as they are.
-/

namespace Lengua

section

variable (change : Recast)

/-- A value with other tokens in its body. -/
def Value.recast : Value → Value
  | .error fault line => .error fault (change.line line)
  | .returned value => .returned value.recast
  | .procedure params body scope => .procedure params (body.recast change) scope
  | value => value

/-- A scope with recast values. -/
def Scope.recast (scope : Scope) : Scope :=
  { scope with bindings := scope.bindings.map fun binding => (binding.1, binding.2.recast change) }

/-- A forest with recast values. -/
def Forest.recast (forest : Forest) : Forest := ⟨forest.scopes.map (Scope.recast change)⟩

end

variable {change : Recast}

/-! ## Values -/

namespace Value

/-- The type of a value stays. -/
@[simp] theorem type_recast (value : Value) : (value.recast change).type = value.type := by
  cases value <;> rfl

/-- The truth of a value stays. -/
@[simp] theorem isTruthy_recast (value : Value) :
    (value.recast change).isTruthy = value.isTruthy := by
  cases value <;> rfl

/-- A signal stays one. -/
@[simp] theorem isSignal_recast (value : Value) :
    (value.recast change).isSignal = value.isSignal := by
  cases value <;> rfl

/-- A value leaves a procedure as before. -/
@[simp] theorem unwrapped_recast (value : Value) :
    (value.recast change).unwrapped = value.unwrapped.recast change := by
  cases value <;> rfl

/-- Signs before recast operands. -/
@[simp] theorem unary_recast (sign : Text) (operand : Value) (line : Int) :
    (operand.recast change).unary sign (change.line line) =
      (operand.unary sign line).recast change := by
  unfold unary
  split
  · rw [isTruthy_recast]
    rfl
  split
  · cases operand <;> rfl
  · rw [type_recast]
    rfl

/-- Operations on integers. -/
theorem ofIntegers_recast (operation : Operation) (left right : Int64) (line : Int) :
    ofIntegers operation left right (change.line line) =
      (ofIntegers operation left right line).recast change := by
  cases operation with
  | divide =>
    unfold ofIntegers
    dsimp only
    split <;> rfl
  | _ => rfl

/-- Operations on strings. -/
theorem ofStrings_recast (operation : Operation) (left right : Text) :
    (ofStrings? operation left right).map (Value.recast change) =
      ofStrings? operation left right := by
  cases operation <;> rfl

/-- Equality of recast values. -/
theorem ofEquals_recast (operation : Operation) (left right : Value) :
    ofEquals? operation (left.recast change) (right.recast change) =
      (ofEquals? operation left right).map (Value.recast change) := by
  cases operation with
  | equal | notEqual => cases left <;> cases right <;> rfl
  | _ => rfl

/-- Signs between recast operands. -/
@[simp] theorem binary_recast (sign : Text) (left right : Value) (line : Int) :
    binary sign (left.recast change) (right.recast change) (change.line line) =
      (binary sign left right line).recast change := by
  have refused (found : Option Value) (fault : Fault) :
      (found.map (Value.recast change)).getD (.error fault (change.line line)) =
        (found.getD (.error fault line)).recast change := by
    cases found <;> rfl
  unfold binary
  simp only [type_recast]
  cases Operation.ofSign? sign with
  | none => cases left <;> cases right <;> rfl
  | some operation =>
    have compared (fault mismatch : Fault) :
        (if (left.recast change).type = (right.recast change).type then
            (ofEquals? operation (left.recast change) (right.recast change)).getD
              (.error fault (change.line line))
          else .error mismatch (change.line line)) =
          (if left.type = right.type then (ofEquals? operation left right).getD (.error fault line)
            else .error mismatch line).recast change := by
      rw [ofEquals_recast, refused, type_recast, type_recast]
      split <;> rfl
    -- Two integers and two strings have operations of their own; all other pairs are compared.
    cases left <;> cases right
    case int.int a b => exact ofIntegers_recast operation a b line
    case str.str a b =>
      have kept := refused (ofStrings? operation a b) (.badOperation .string sign .string)
      rwa [ofStrings_recast] at kept
    all_goals exact compared _ _

/-- The length of recast arguments. -/
theorem length_recast (args : List Value) (line : Int) :
    length (args.map (Value.recast change)) (change.line line) =
      (length args line).recast change := by
  match args with
  | [] => rfl
  | [value] => cases value <;> rfl
  | first :: second :: rest => simp [length, Value.recast]

/-- A plain value is shown as before. -/
theorem inspect_recast {value : Value} (plain : value.isSignal = false) :
    (value.recast change).inspect = value.inspect := by
  cases value with
  | error | returned | returnedNothing => cases plain
  | _ => rfl

/-- If everything is kept, a value stays as it is. -/
theorem recast_keep (value : Value) : value.recast .keep = value := by
  induction value with
  | returned value ih => rw [recast, ih]
  | procedure params body scope => rw [recast, body.recast_keep]
  | _ => rfl

end Value

/-! ## Scopes -/

namespace Scope

/-- A name in a recast scope. -/
theorem own_recast (scope : Scope) (name : Text) :
    (scope.recast change).own? name = (scope.own? name).map (Value.recast change) :=
  lookup_map (Value.recast change) name scope.bindings

/-- If everything is kept, a scope stays as it is. -/
theorem recast_keep (scope : Scope) : scope.recast .keep = scope := by
  simp [recast, Value.recast_keep]

end Scope

namespace Forest

/-- Recasting keeps the number of scopes. -/
@[simp] theorem size_recast (forest : Forest) :
    (forest.recast change).scopes.size = forest.scopes.size := Array.size_map

/-- Recasting keeps the enclosing scopes. -/
@[simp] theorem outer_recast (forest : Forest) (id : ScopeId) :
    (forest.recast change).outer? id = forest.outer? id := by
  simp only [outer?, recast, Array.getElem?_map]
  cases forest.scopes[id]? <;> rfl

/-- Recasting keeps the chains of scopes. -/
theorem chainWithin_recast (forest : Forest) (bound : Nat) (id : Option ScopeId) :
    (forest.recast change).chainWithin bound id = forest.chainWithin bound id := by
  induction bound generalizing id with
  | zero => rfl
  | succ bound ih =>
    cases id with
    | none => rfl
    | some id => rw [chainWithin, chainWithin, outer_recast, ih]

/-- A name in one scope of a recast forest. -/
theorem own_recast (forest : Forest) (name : Text) (id : ScopeId) :
    (forest.recast change).own? name id = (forest.own? name id).map (Value.recast change) := by
  simp only [own?, recast, Array.getElem?_map]
  cases forest.scopes[id]? with
  | none => rfl
  | some scope => exact scope.own_recast name

/-- A name in a recast forest. -/
theorem get_recast (forest : Forest) (id : ScopeId) (name : Text) :
    (forest.recast change).get? id name = (forest.get? id name).map (Value.recast change) := by
  unfold get? chain
  rw [size_recast, chainWithin_recast]
  induction forest.chainWithin forest.scopes.size (some id) with
  | nil => rfl
  | cons id rest ih =>
    rw [List.findSome?_cons, List.findSome?_cons, own_recast, ih]
    cases forest.own? name id <;> rfl

/-- Binding a recast value in a recast forest. -/
theorem set_recast (forest : Forest) (id : ScopeId) (name : Text) (value : Value) :
    (forest.recast change).set id name (value.recast change) =
      (forest.set id name value).recast change := by
  unfold set recast
  congr 1
  apply Array.ext_getElem?
  intro index
  rw [Array.getElem?_modify, Array.getElem?_map, Array.getElem?_map, Array.getElem?_modify]
  cases forest.scopes[index]? with
  | none => split <;> rfl
  | some scope =>
    split
    · simp only [Option.map_some, Scope.set, Scope.recast, Scope.bind_map (Value.recast change)]
    · rfl

/-- Binding recast values in a recast forest. -/
theorem setAll_recast (forest : Forest) (id : ScopeId) (bindings : List (Text × Value)) :
    (forest.recast change).setAll id
        (bindings.map fun binding => (binding.1, binding.2.recast change)) =
      (forest.setAll id bindings).recast change := by
  unfold setAll
  induction bindings generalizing forest with
  | nil => rfl
  | cons binding rest ih =>
    rw [List.map_cons, List.foldl_cons, List.foldl_cons, set_recast]
    exact ih _

/-- Opening a scope in a recast forest. -/
theorem add_recast (forest : Forest) (outer : Option ScopeId) :
    (forest.recast change).add outer =
      ((forest.add outer).1, (forest.add outer).2.recast change) := by
  simp [add, recast, Scope.recast]

/-- A forest without bindings stays as it is. -/
theorem recast_single : Forest.single.recast change = .single := by
  simp [recast, single, Scope.recast]

/-- The bindings of a scope of a recast forest. -/
theorem bindings_recast (forest : Forest) (id : ScopeId) :
    (forest.recast change).bindings id =
      (forest.bindings id).map fun binding => (binding.1, binding.2.recast change) := by
  simp only [bindings, recast, Array.getElem?_map]
  cases forest.scopes[id]? <;> rfl

/-- If everything is kept, a forest stays as it is. -/
theorem recast_keep (forest : Forest) : forest.recast .keep = forest := by
  have scopes : Scope.recast .keep = id := funext Scope.recast_keep
  rw [recast, scopes, Array.map_id]

end Forest

end Lengua
