import Lengua.Scope
import Mathlib.Data.Finset.Card

/-!
# Chains of scopes

A look-up follows the links to enclosing scopes for as many steps as there are scopes. More
steps find nothing new, whatever the links are like: where a chain is longer than there are
scopes it has come back to a scope it has met before, and so has met what follows too. So a look-up
finds what the first scope on the way outward binds, however far that is.
-/

namespace Lengua

namespace Forest

/-- The scope a number of links outward of a scope. -/
def outward (forest : Forest) : Nat → ScopeId → Option ScopeId
  | 0, id => some id
  | steps + 1, id => (forest.outer? id).bind (forest.outward steps)

variable (forest : Forest)

/-- Going outward in two parts. -/
theorem outward_add (steps more : Nat) (id : ScopeId) :
    forest.outward (steps + more) id = (forest.outward steps id).bind (forest.outward more) := by
  induction steps generalizing id with
  | zero => rw [Nat.zero_add, outward, Option.bind_some]
  | succ steps ih =>
    rw [Nat.succ_add, outward, outward, Option.bind_assoc]
    congr 1
    exact funext ih

/-- One more step meets one more scope, if there is one. -/
theorem chainWithin_succ (bound : Nat) (id : ScopeId) :
    forest.chainWithin (bound + 1) (some id) =
      forest.chainWithin bound (some id) ++ (forest.outward bound id).toList := by
  induction bound generalizing id with
  | zero => rfl
  | succ bound ih =>
    rw [chainWithin, outward, chainWithin, List.cons_append]
    cases forest.outer? id with
    | none => cases bound <;> rfl
    | some next => rw [ih next, Option.bind_some]

/-- A scope less than so many links outward is among those met. -/
theorem mem_chainWithin {bound steps : Nat} {id found : ScopeId} (less : steps < bound)
    (met : forest.outward steps id = some found) : found ∈ forest.chainWithin bound (some id) := by
  induction bound with
  | zero => omega
  | succ bound ih =>
    rw [chainWithin_succ]
    by_cases last : steps = bound
    · rw [← last, met]
      exact List.mem_append_right _ (List.mem_singleton.mpr rfl)
    · exact List.mem_append_left _ (ih (by omega))

variable {forest}

/-- Only a scope that exists lies inside another. -/
theorem lt_size_of_outer {id next : ScopeId} (found : forest.outer? id = some next) :
    id < forest.scopes.size := by
  obtain ⟨scope, there, -⟩ := Option.bind_eq_some_iff.mp found
  exact (Array.getElem?_eq_some_iff.mp there).1

/-- A scope that exists and is at least as many links outward as there are scopes can be met with
fewer links. -/
theorem exists_outward_lt {steps : Nat} {id found : ScopeId}
    (met : forest.outward steps id = some found) (there : found < forest.scopes.size)
    (many : forest.scopes.size ≤ steps) :
    ∃ fewer < steps, forest.outward fewer id = some found := by
  -- Every scope on the way exists, so that two of them are the same one.
  have onTheWay (part : Nat) (before : part ≤ steps) : ∃ between,
      forest.outward part id = some between ∧ between < forest.scopes.size ∧
        forest.outward (steps - part) between = some found := by
    have parts := forest.outward_add part (steps - part) id
    rw [Nat.add_sub_cancel' before, met] at parts
    obtain ⟨between, reached, goesOn⟩ := Option.bind_eq_some_iff.mp parts.symm
    refine ⟨between, reached, ?_, goesOn⟩
    cases rest : steps - part with
    | zero =>
      rw [rest] at goesOn
      cases goesOn
      exact there
    | succ rest' =>
      rw [rest] at goesOn
      obtain ⟨next, outer, -⟩ := Option.bind_eq_some_iff.mp goesOn
      exact lt_size_of_outer outer
  have repeated : ∃ first ∈ Finset.range (steps + 1), ∃ second ∈ Finset.range (steps + 1),
      first ≠ second ∧ forest.outward first id = forest.outward second id := by
    have maps : ∀ part ∈ Finset.range (steps + 1),
        (forest.outward part id).getD 0 ∈ Finset.range forest.scopes.size := by
      intro part within
      obtain ⟨between, reached, inside, -⟩ :=
        onTheWay part (Nat.le_of_lt_succ (Finset.mem_range.mp within))
      rw [reached]
      exact Finset.mem_range.mpr inside
    obtain ⟨first, inFirst, second, inSecond, apart, same⟩ :=
      Finset.exists_ne_map_eq_of_card_lt_of_maps_to
        (by simpa using Nat.lt_succ_of_le many) maps
    obtain ⟨one, reachedOne, -⟩ := onTheWay first (Nat.le_of_lt_succ (Finset.mem_range.mp inFirst))
    obtain ⟨two, reachedTwo, -⟩ :=
      onTheWay second (Nat.le_of_lt_succ (Finset.mem_range.mp inSecond))
    refine ⟨first, inFirst, second, inSecond, apart, ?_⟩
    rw [reachedOne, reachedTwo] at same ⊢
    exact congrArg some same
  -- What follows the later of the two also follows the earlier.
  have shortened {first second : Nat} (less : first < second) (within : second ≤ steps)
      (same : forest.outward first id = forest.outward second id) :
      ∃ fewer < steps, forest.outward fewer id = some found := by
    refine ⟨first + (steps - second), by omega, ?_⟩
    rw [outward_add, same, ← outward_add, Nat.add_sub_cancel' within, met]
  obtain ⟨first, inFirst, second, inSecond, apart, same⟩ := repeated
  rw [Finset.mem_range] at inFirst inSecond
  rcases Nat.lt_or_gt_of_ne apart with less | greater
  · exact shortened less (by omega) same
  · exact shortened greater (by omega) same.symm

/-- Steps beyond the number of scopes find nothing new. -/
theorem findSome_chainWithin {bound : Nat} (many : forest.scopes.size ≤ bound) (id : ScopeId)
    (name : Text) : (forest.chainWithin bound (some id)).findSome? (forest.own? name) =
      forest.get? id name := by
  induction bound, many using Nat.le_induction with
  | base => rfl
  | succ bound many ih =>
    rw [chainWithin_succ, List.findSome?_append, ih]
    cases found : forest.get? id name with
    | some value => rfl
    | none =>
      rw [Option.none_or, List.findSome?_eq_none_iff]
      intro last mem
      rw [Option.mem_toList] at mem
      by_cases there : last < forest.scopes.size
      · obtain ⟨fewer, less, met⟩ := exists_outward_lt mem there many
        rw [found] at ih
        exact List.findSome?_eq_none_iff.mp ih last (forest.mem_chainWithin less met)
      · rw [own?, Array.getElem?_eq_none (Nat.le_of_not_lt there), Option.bind_none]

/-- No scope is met from none. -/
theorem chainWithin_none (bound : Nat) : forest.chainWithin bound none = [] := by
  cases bound <;> rfl

/-- What a scope itself gives a name comes first, and then what the scope around it sees. -/
theorem get_eq (id : ScopeId) (name : Text) : forest.get? id name =
    (forest.own? name id).or ((forest.outer? id).bind (forest.get? · name)) := by
  rw [← findSome_chainWithin (Nat.le_succ _), chainWithin, List.findSome?_cons]
  cases forest.own? name id with
  | some value => rfl
  | none =>
    cases forest.outer? id with
    | none => rw [chainWithin_none]; rfl
    | some next => rfl

/-- What is met within some steps is what the first scope on the way outward binds. -/
theorem exists_outward_of_findSome {bound : Nat} {id : ScopeId} {name : Text} {value : Value}
    (found : (forest.chainWithin bound (some id)).findSome? (forest.own? name) = some value) :
    ∃ steps holder, forest.outward steps id = some holder ∧
      forest.own? name holder = some value ∧
      ∀ fewer < steps, ∀ nearer, forest.outward fewer id = some nearer →
        forest.own? name nearer = none := by
  induction bound generalizing id with
  | zero => cases found
  | succ bound ih =>
    rw [chainWithin, List.findSome?_cons] at found
    cases own : forest.own? name id with
    | some here =>
      rw [own] at found
      exact ⟨0, id, rfl, own.trans found, fun fewer less => absurd less (Nat.not_lt_zero fewer)⟩
    | none =>
      rw [own] at found
      cases around : forest.outer? id with
      | none =>
        rw [around, chainWithin_none] at found
        cases found
      | some next =>
        rw [around] at found
        obtain ⟨steps, holder, met, bound, before⟩ := ih found
        refine ⟨steps + 1, holder, by rw [outward, around]; exact met, bound, ?_⟩
        intro fewer less nearer metNearer
        cases fewer with
        | zero => exact Option.some.inj metNearer ▸ own
        | succ fewer =>
          rw [outward, around] at metNearer
          exact before fewer (Nat.lt_of_succ_lt_succ less) nearer metNearer

/-- A name has a value if the first scope on the way outward that binds it binds it to this. -/
theorem get_eq_some_iff {id : ScopeId} {name : Text} {value : Value} :
    forest.get? id name = some value ↔
      ∃ steps holder, forest.outward steps id = some holder ∧
        forest.own? name holder = some value ∧
        ∀ fewer < steps, ∀ nearer, forest.outward fewer id = some nearer →
          forest.own? name nearer = none := by
  refine ⟨exists_outward_of_findSome, ?_⟩
  -- One link outward is one step of the look-up, however many scopes there are.
  rintro ⟨steps, holder, met, bound, before⟩
  induction steps generalizing id with
  | zero =>
    cases met
    rw [get_eq, bound, Option.some_or]
  | succ steps ih =>
    obtain ⟨next, around, further⟩ := Option.bind_eq_some_iff.mp met
    have own : forest.own? name id = none := before 0 (Nat.succ_pos steps) id rfl
    rw [get_eq, own, Option.none_or, around, Option.bind_some]
    refine ih further fun fewer less nearer metNearer => ?_
    refine before (fewer + 1) (Nat.succ_lt_succ less) nearer ?_
    rw [outward, around]
    exact metNearer

/-- A name has no value if no scope on the way outward binds it. -/
theorem get_eq_none_iff {id : ScopeId} {name : Text} :
    forest.get? id name = none ↔
      ∀ steps holder, forest.outward steps id = some holder → forest.own? name holder = none := by
  constructor
  · intro missing steps holder met
    induction steps generalizing id with
    | zero =>
      cases met
      rw [get_eq, Option.or_eq_none_iff] at missing
      exact missing.1
    | succ steps ih =>
      obtain ⟨next, around, further⟩ := Option.bind_eq_some_iff.mp met
      rw [get_eq, around, Option.or_eq_none_iff] at missing
      exact ih missing.2 further
  · intro unbound
    cases found : forest.get? id name with
    | none => rfl
    | some value =>
      obtain ⟨steps, holder, met, bound, -⟩ := get_eq_some_iff.mp found
      rw [unbound steps holder met] at bound
      cases bound

/-- Going outward depends on the enclosing scopes only. -/
theorem outward_congr {other : Forest} (same : ∀ id, other.outer? id = forest.outer? id)
    (steps : Nat) (id : ScopeId) : other.outward steps id = forest.outward steps id := by
  induction steps generalizing id with
  | zero => rfl
  | succ steps ih =>
    rw [outward, outward, same]
    exact congrArg _ (funext ih)

/-- A look-up depends on the enclosing scopes and on what those on the way outward bind. -/
theorem get_congr {other : Forest} (same : ∀ id, other.outer? id = forest.outer? id)
    {id : ScopeId} {name : Text}
    (own : ∀ steps holder, forest.outward steps id = some holder →
      other.own? name holder = forest.own? name holder) :
    other.get? id name = forest.get? id name := by
  apply Option.ext
  intro value
  rw [get_eq_some_iff, get_eq_some_iff]
  simp only [outward_congr same]
  refine exists₂_congr fun steps holder => and_congr_right fun met => ?_
  rw [own steps holder met]
  refine and_congr_right fun _ => forall₂_congr fun fewer _ => forall₂_congr fun nearer met' => ?_
  rw [own fewer nearer met']

/-- A binding is not noticed where another name is looked up, or from where its scope is not on the
way outward. -/
theorem get_set_of_unseen {target id : ScopeId} {bound name : Text}
    (unseen : bound ≠ name ∨ ∀ steps, forest.outward steps id ≠ some target) (value : Value) :
    (forest.set target bound value).get? id name = forest.get? id name := by
  refine get_congr (outer_set target bound value) fun steps holder met => own_set_of_ne ?_ value
  refine unseen.imp_right fun elsewhere same => ?_
  rw [same] at elsewhere
  exact elsewhere steps met

end Forest

end Lengua
