import Lengua.Proofs.Eval.Clean
import Lengua.Proofs.Eval.Outcome
import Lengua.Tree.Reader

/-!
# Values that are wrapped more than once

The language wraps a value once, when it leaves a procedure, and never wraps a signal. A host can
do more: it may bind a value that is wrapped several times, and its functions may answer with one.
The end of a procedure takes one layer off, and so do the end of a program and the answer of a
function. One layer is not always enough, so the values that a host binds and answers with decide
whether a program ends in a value that is still wrapped.
-/

namespace Lengua

/-! ## Layers -/

namespace Value

/-- How often a value is wrapped on its way out of procedures. -/
def layers : Value → Nat
  | returned value => value.layers + 1
  | returnedNothing => 1
  | _ => 0

/-- The values that are wrapped are those on their way out of a procedure. -/
theorem type_ne_returned_iff (value : Value) : value.type ≠ .returned ↔ value.layers = 0 := by
  cases value <;> simp [type, layers]

/-- Leaving a procedure takes one layer off. -/
theorem layers_unwrapped (value : Value) : value.unwrapped.layers = value.layers - 1 := by
  cases value <;> rfl

/-- A plain value is not wrapped. -/
theorem layers_of_plain {value : Value} (plain : value.isSignal = false) : value.layers = 0 := by
  cases value with
  | error | returned | returnedNothing => cases plain
  | _ => rfl

/-- What an evaluation itself ends in is wrapped at most once. -/
theorem Settled.layers_le {value : Value} (settled : value.Settled) : value.layers ≤ 1 := by
  cases settled with
  | plain plain =>
    have none := layers_of_plain plain
    omega
  | error fault line => exact Nat.zero_le 1
  | @returned inside plain =>
    have none := layers_of_plain plain
    show inside.layers + 1 ≤ 1
    omega

end Value

/-! ## Scopes and hosts -/

namespace Forest

/-- No name stands for a value in more than so many layers, in whatever scope it is looked up. -/
def ShowsWithin (bound : Nat) (forest : Forest) : Prop :=
  ∀ id name value, forest.get? id name = some value → value.layers ≤ bound

/-- No scope itself gives a name a value in more than so many layers. -/
def HoldsWithin (bound : Nat) (forest : Forest) : Prop :=
  ∀ id name value, forest.own? name id = some value → value.layers ≤ bound

/-- What a scope itself gives a name is what the name stands for there. -/
theorem get_of_own {forest : Forest} {id : ScopeId} {name : Text} {value : Value}
    (own : forest.own? name id = some value) : forest.get? id name = some value := by
  obtain ⟨scope, there, -⟩ := Option.bind_eq_some_iff.mp own
  have inside : id < forest.scopes.size := (Array.getElem?_eq_some_iff.mp there).1
  obtain ⟨others, size⟩ : ∃ others, forest.scopes.size = others + 1 :=
    Nat.exists_eq_add_one.mpr (Nat.zero_lt_of_lt inside)
  rw [get?, chain, size, chainWithin, List.findSome?_cons, own]

/-- Looking at the scopes one by one or along their chains makes no difference. -/
theorem holdsWithin_iff {bound : Nat} {forest : Forest} :
    forest.HoldsWithin bound ↔ forest.ShowsWithin bound := by
  constructor
  · intro holds id name value found
    obtain ⟨holder, -, own⟩ := List.exists_of_findSome?_eq_some found
    exact holds holder name value own
  · intro shows id name value own
    exact shows id name value (get_of_own own)

/-- Binding a plain value. -/
theorem HoldsWithin.set {bound : Nat} {forest : Forest} (holds : forest.HoldsWithin bound)
    {value : Value} (plain : value.isSignal = false) (id : ScopeId) (name : Text) :
    (forest.set id name value).HoldsWithin bound := by
  intro index other result own
  obtain ⟨scope, there, bound'⟩ := Option.bind_eq_some_iff.mp own
  rw [Forest.getElem_set] at there
  by_cases same : id = index
  · rw [if_pos same] at there
    obtain ⟨before, old, rfl⟩ := Option.map_eq_some_iff.mp there
    have found : (Scope.bind name value before.bindings).lookup other = some result := bound'
    by_cases named : other = name
    · rw [named, Scope.lookup_bind_self] at found
      cases found
      rw [Value.layers_of_plain plain]
      exact Nat.zero_le bound
    · rw [Scope.lookup_bind_of_ne value before.bindings named] at found
      exact holds index other result (Option.bind_eq_some_iff.mpr ⟨before, old, found⟩)
  · rw [if_neg same] at there
    exact holds index other result (Option.bind_eq_some_iff.mpr ⟨scope, there, bound'⟩)

/-- Opening a scope. -/
theorem HoldsWithin.add {bound : Nat} {forest : Forest} (holds : forest.HoldsWithin bound)
    (outer : Option ScopeId) : (forest.add outer).2.HoldsWithin bound := by
  intro id name value own
  obtain ⟨scope, there, found⟩ := Option.bind_eq_some_iff.mp own
  rw [Forest.getElem_add] at there
  by_cases fresh : id = forest.scopes.size
  · rw [if_pos fresh] at there
    cases there
    cases found
  · rw [if_neg fresh] at there
    exact holds id name value (Option.bind_eq_some_iff.mpr ⟨scope, there, found⟩)

end Forest

/-- No function of the host answers with a value in more than so many layers. -/
def Host.AnswersWithin (bound : Nat) (host : Host) : Prop :=
  ∀ name behaviour args line value, host.behaviour? name = some behaviour →
    behaviour args line = some value → value.layers ≤ bound

/-- A call takes a layer off what the host answers with. -/
theorem Host.AnswersWithin.answer {bound : Nat} {host : Host}
    (answers : host.AnswersWithin (bound + 1)) (name : Text) (args : List Value) (line : Int) :
    (host.answer (.host name) args line).layers ≤ bound := by
  cases found : host.behaviour? name with
  | none =>
    simp only [Host.answer, found]
    exact Nat.zero_le bound
  | some behaviour =>
    simp only [Host.answer, found, Value.layers_unwrapped]
    cases answered : behaviour args line with
    | none => exact Nat.zero_le bound
    | some value =>
      have few := answers name behaviour args line value found answered
      rw [Option.getD_some]
      omega

/-- Evaluations do not add to the layers of what a host binds and answers with. -/
theorem Host.AnswersWithin.maintains {bound : Nat} {host : Host}
    (answers : host.AnswersWithin (bound + 2)) :
    host.Maintains (Forest.HoldsWithin (bound + 1)) fun value => value.layers ≤ bound + 1 where
  settled settled := Nat.le_trans settled.layers_le (Nat.le_add_left 1 bound)
  answer := answers.answer
  unwrapped {value} few := by
    rw [value.layers_unwrapped]
    omega
  get holds found := Forest.holdsWithin_iff.mp holds _ _ _ found
  set holds plain := holds.set plain
  add holds := holds.add

/-! ## Programs -/

namespace Limits

/-- A program ends in a value with one layer less than the scopes hold, and two less than the host
answers with. -/
theorem evaluate_layers {limits : Limits} {host : Host} {fallback bound : Nat} {program : Program}
    {scope : ScopeId} {forest after : Forest} {value : Value}
    (answers : host.AnswersWithin (bound + 2)) (shows : forest.ShowsWithin (bound + 1))
    (ended : limits.evaluate host fallback (.program program) scope forest = some (value, after)) :
    value.layers ≤ bound := by
  obtain ⟨budget, ran⟩ := evaluate_eq_some_iff.mp ended
  have maintains : (Machine.mk limits.meter host).host.Maintains
      (Forest.HoldsWithin (bound + 1)) (fun value => value.layers ≤ bound + 1) :=
    answers.maintains
  obtain ⟨-, before, few, rfl⟩ :=
    Program.eval_maintains maintains (Forest.holdsWithin_iff.mpr shows) ran
  rw [before.layers_unwrapped]
  omega

/-- The program that mentions one name. -/
def mention (name : Text) : Program := ⟨[.expr (Token.eof 1) (.ident ⟨Token.eof 1, name⟩)]⟩

/-- Mentioning a name takes one layer off what it stands for. -/
theorem evaluate_mention {host : Host} {name : Text} {scope : ScopeId} {forest : Forest}
    {value : Value} (found : forest.get? scope name = some value) :
    (Limits.mk 0 0).evaluate host 0 (.program (mention name)) scope forest =
      some (value.unwrapped, forest) := by
  have resolved (machine : Machine Budget) :
      machine.resolve scope ⟨Token.eof 1, name⟩ forest = value := by
    simp only [Machine.resolve, found]
  cases signal : value.isSignal with
  | true =>
    simp [evaluate, Node.eval, Program.eval, mention, Stmt.evalAll, Stmt.eval, Expr.eval,
      Machine.visit, meter, budget, Run.unlessSignal, Run.read, Run.unwrapped, resolved, signal]
  | false =>
    simp [evaluate, Node.eval, Program.eval, mention, Stmt.evalAll, Stmt.eval, Expr.eval,
      Machine.visit, meter, budget, Run.unlessSignal, Run.read, Run.unwrapped, Run.done, resolved,
      signal]

/-- With a host whose functions answer with no value that is wrapped more than twice, all programs
in all scopes end in values that are not wrapped exactly if no name stands for a value that is
wrapped more than once. -/
theorem evaluate_unwrapped (host : Host) (forest : Forest) (answers : host.AnswersWithin 2) :
    (∀ limits fallback program scope value after,
        Limits.evaluate limits host fallback (.program program) scope forest =
          some (value, after) → value.type ≠ .returned) ↔
      forest.ShowsWithin 1 := by
  constructor
  · intro unwrapped id name value found
    have mentioned := unwrapped _ _ _ _ _ _ (evaluate_mention found)
    rw [Value.type_ne_returned_iff, Value.layers_unwrapped] at mentioned
    omega
  · intro shows limits fallback program scope value after ended
    have none : value.layers ≤ 0 := evaluate_layers answers shows ended
    exact (value.type_ne_returned_iff).mpr (Nat.le_zero.mp none)

/-- A function that answers with a value wrapped twice, and a name for a value wrapped once: every
program ends in a value that is not wrapped. -/
theorem evaluate_unwrapped_once :
    let host : Host := ⟨[utf8 "f"], fun _ => some fun _ _ => some (.returned (.returned (.int 4)))⟩
    let forest := Forest.single.set 0 (utf8 "r") (.returned (.int 5))
    host.AnswersWithin 2 ∧ forest.ShowsWithin 1 ∧
      ∀ limits fallback program scope value after,
        Limits.evaluate limits host fallback (.program program) scope forest =
          some (value, after) → value.type ≠ .returned := by
  intro host forest
  have answers : host.AnswersWithin 2 := by
    rintro _ _ _ _ _ ⟨⟩ ⟨⟩
    exact Nat.le_refl 2
  have shows : forest.ShowsWithin 1 := by
    apply Forest.holdsWithin_iff.mp
    intro id name value own
    cases id with
    | zero =>
      have found : [(utf8 "r", Value.returned (.int 5))].lookup name = some value := own
      rw [List.lookup_cons] at found
      split at found
      · cases found
        exact Nat.le_refl 1
      · cases found
    | succ id => cases own
  exact ⟨answers, shows, (evaluate_unwrapped host forest answers).mpr shows⟩

/-- A name for a value that is wrapped twice, and a function that answers with one wrapped three
times: the programs that mention the one and call the other end in values that are still
wrapped. -/
theorem evaluate_unwrapped_fails :
    let forest := Forest.single.set 0 (utf8 "r") (.returned (.returned (.int 3)))
    let host : Host :=
      ⟨[utf8 "f"], fun _ => some fun _ _ => some (.returned (.returned (.returned (.int 4))))⟩
    let type (found : Value × Forest) := found.1.type
    (default.evaluate .empty 0 (.program (Program.ofText (utf8 "r")).program) 0 forest).map type =
        some .returned ∧
      (default.evaluate host 0 (.program (Program.ofText (utf8 "f()")).program) 0 .single).map type =
        some .returned := by
  decide +kernel

end Limits

end Lengua
