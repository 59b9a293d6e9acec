import Lengua.Proofs.Eval.Moved

/-!
# Evaluations in corresponding forests

Two machines evaluate one tree in corresponding scopes of two forests. A step of the first is
tracked by one of the second when, from every pair of corresponding worlds, both have no outcome,
or both have one and outcomes and worlds correspond again. What is known at the end are the scopes
known at the start and those opened since; what the outcome leads to is among them. The parts of
an evaluation are tracked one by one, then trees by induction, then bodies by induction on the
number of nested calls.
-/

namespace Lengua

/-! ## What is known -/

/-- At a later stage the scopes are known that were known before and those opened since. -/
structure Opens (known : ScopeId → Prop) (size : Nat) (later : ScopeId → Prop) (laterSize : Nat) :
    Prop where
  /-- Scopes are only opened. -/
  le : size ≤ laterSize
  /-- What is known. -/
  known_iff : ∀ id : Nat, later id ↔ known id ∨ size ≤ id ∧ id < laterSize

namespace Opens

variable {known later last : ScopeId → Prop} {size laterSize lastSize : Nat}

/-- No scope is opened. -/
theorem refl : Opens known size known size where
  le := Nat.le_refl size
  known_iff id := ⟨.inl, fun either => either.resolve_right (by omega)⟩

/-- One scope is opened. -/
theorem one : Opens known size (fun id => known id ∨ id = size) (size + 1) where
  le := Nat.le_succ size
  known_iff id := or_congr_right
    ⟨fun same => by
      subst same
      exact ⟨Nat.le_refl id, Nat.lt_succ_self id⟩,
    fun within => Nat.le_antisymm (Nat.le_of_lt_succ within.2) within.1⟩

/-- Scopes are opened after others. -/
theorem trans (first : Opens known size later laterSize)
    (second : Opens later laterSize last lastSize) : Opens known size last lastSize where
  le := Nat.le_trans first.le second.le
  known_iff id := by
    have le := first.le
    have le' := second.le
    rw [second.known_iff, first.known_iff, or_assoc]
    apply or_congr_right
    omega

/-- What was known stays known. -/
theorem keeps (opens : Opens known size later laterSize) (id : ScopeId) (there : known id) :
    later id := (opens.known_iff id).mpr (.inl there)

end Opens

/-- What the outcomes of a kind of step carry. -/
structure Cargo (Outcome : Type) where
  /-- An outcome with scopes under other numbers. -/
  moved : (ScopeId → ScopeId) → Outcome → Outcome
  /-- Which scopes an outcome leads to. -/
  LeadsTo : Outcome → ScopeId → Prop

namespace Cargo

/-- What a value carries. -/
def value : Cargo Value where
  moved := Value.moved
  LeadsTo value id := value.home? = some id

/-- What several values carry, or the signal that ended them. -/
def values : Cargo (Except Value (List Value)) where
  moved place
    | .error signal => .error (signal.moved place)
    | .ok values => .ok (values.map (Value.moved place))
  LeadsTo
    | .error signal, id => signal.home? = some id
    | .ok values, id => ∃ value ∈ values, value.home? = some id

end Cargo

/-! ## Machines -/

/-- Two machines whose meters do not look at the scopes, and whose hosts answer alike. -/
structure Tracking {First Second : Type} (first : Machine First) (second : Machine Second) where
  /-- The numbers of scopes in the second forest. -/
  shift : Shift
  /-- The tallies of corresponding worlds. -/
  agrees : First → Second → Prop
  /-- The meters let the same visits pass. -/
  visit : ∀ {tally other}, agrees tally other → ∀ line forest forest',
    Option.Rel agrees (first.meter.visit line forest tally) (second.meter.visit line forest' other)
  /-- The meters let the same calls pass. -/
  enter : ∀ {tally other}, agrees tally other → ∀ line,
    Option.Rel agrees (first.meter.enter line tally) (second.meter.enter line other)
  /-- The tallies still agree when a call has ended. -/
  leave : ∀ {tally other}, agrees tally other →
    agrees (first.meter.leave tally) (second.meter.leave other)
  /-- The hosts show the same functions. -/
  find : ∀ name, second.host.find? name = first.host.find? name
  /-- The hosts give the same answers. -/
  answer : ∀ name args line,
    second.host.answer (.host name) (args.map (Value.moved shift.place)) line =
      (first.host.answer (.host name) args line).moved shift.place
  /-- The scopes that the hosts hold themselves. -/
  held : ScopeId → Prop
  /-- An answer leads to a scope that the hosts hold, or to one that an argument leads to. -/
  discreet : ∀ name args line id, (first.host.answer (.host name) args line).home? = some id →
    held id ∨ ∃ arg ∈ args, arg.home? = some id

namespace Tracking

variable {First Second : Type} {first : Machine First} {second : Machine Second}
  (track : Tracking first second)

/-- Worlds in which the known scopes correspond and the tallies agree. -/
structure Worlds (known : ScopeId → Prop) (world : World First) (other : World Second) : Prop where
  /-- The forests correspond. -/
  carried : world.forest.Carried track.shift known other.forest
  /-- What the hosts hold is known. -/
  held : ∀ id, track.held id → known id
  /-- The tallies agree. -/
  agree : track.agrees world.tally other.tally

/-- How two steps end that start when some scopes are known. -/
inductive Ends {Outcome : Type} (cargo : Cargo Outcome) (known : ScopeId → Prop) (size : Nat) :
    Option (Outcome × World First) → Option (Outcome × World Second) → Prop where
  /-- Neither has an outcome. -/
  | neither : Ends cargo known size none none
  /-- Both have one, and they correspond. -/
  | both (outcome : Outcome) (after : World First) (after' : World Second)
    (last : ScopeId → Prop) (opens : Opens known size last after.forest.scopes.size)
    (worlds : track.Worlds last after after') (leads : ∀ id, cargo.LeadsTo outcome id → last id) :
    Ends cargo known size (some (outcome, after))
      (some (cargo.moved track.shift.place outcome, after'))

/-- A step of the second machine that does what a step of the first does, once some scopes are
known. -/
def Tracks {Outcome : Type} (cargo : Cargo Outcome) (known : ScopeId → Prop)
    (run : Run First Outcome) (other : Run Second Outcome) : Prop :=
  ∀ later : ScopeId → Prop, (∀ id, known id → later id) → ∀ world world',
    track.Worlds later world world' →
      track.Ends cargo later world.forest.scopes.size (run world) (other world')

/-- A way of running bodies that does what another does. -/
def TracksInvoke (invoke : Invoke First) (other : Invoke Second) : Prop :=
  ∀ known body scope, known scope →
    track.Tracks .value known (invoke body scope) (other body (track.shift.place scope))

variable {track}

/-- What was opened before also counts. -/
theorem Ends.after {Outcome : Type} {cargo : Cargo Outcome} {known later : ScopeId → Prop}
    {size laterSize : Nat} {found : Option (Outcome × World First)}
    {found' : Option (Outcome × World Second)}
    (ends : track.Ends cargo later laterSize found found')
    (before : Opens known size later laterSize) : track.Ends cargo known size found found' := by
  cases ends with
  | neither => exact .neither
  | both outcome after after' last opens worlds leads =>
    exact .both outcome after after' last (before.trans opens) worlds leads

/-- Where the first step has an outcome, the second has a corresponding one. -/
theorem Ends.ofSome {Outcome : Type} {cargo : Cargo Outcome} {known : ScopeId → Prop} {size : Nat}
    {outcome : Outcome} {after : World First} {found : Option (Outcome × World Second)}
    (ends : track.Ends cargo known size (some (outcome, after)) found) :
    ∃ after' last, found = some (cargo.moved track.shift.place outcome, after') ∧
      Opens known size last after.forest.scopes.size ∧ track.Worlds last after after' ∧
      ∀ id, cargo.LeadsTo outcome id → last id := by
  cases ends with
  | both _ _ after' last opens worlds leads => exact ⟨after', last, rfl, opens, worlds, leads⟩

namespace Tracks

variable {known : ScopeId → Prop} {run : Run First Value} {run' : Run Second Value}
  {rest : Run First (Except Value (List Value))} {rest' : Run Second (Except Value (List Value))}

/-! ## Steps -/

/-- Yielding an outcome. -/
theorem done {Outcome : Type} (cargo : Cargo Outcome) (outcome : Outcome)
    (leads : ∀ id, cargo.LeadsTo outcome id → known id) :
    track.Tracks cargo known (.done outcome) (.done (cargo.moved track.shift.place outcome)) := by
  intro later sub world world' worlds
  exact .both outcome world world' later .refl worlds fun id there => sub id (leads id there)

/-- Yielding a value without a scope. -/
theorem flat {value : Value} (none : value.home? = none) :
    track.Tracks .value known (.done value) (.done value) := by
  have tracks : track.Tracks .value known (.done value) (.done (value.moved track.shift.place)) :=
    done .value value fun id home => by
      rw [show value.home? = some id from home] at none
      cases none
  rwa [Value.moved_of_home _ none] at tracks

/-- Going on unless there is a signal. -/
theorem unlessSignal {next : Value → Run First Value} {next' : Value → Run Second Value}
    (before : track.Tracks .value known run run')
    (after : ∀ (later : ScopeId → Prop) value, (∀ id, known id → later id) →
      (∀ id, value.home? = some id → later id) →
      track.Tracks .value later (next value) (next' (value.moved track.shift.place))) :
    track.Tracks .value known (run.unlessSignal next) (run'.unlessSignal next') := by
  intro later sub world world' worlds
  have ended := before later sub world world' worlds
  unfold Run.unlessSignal
  generalize run world = found at ended ⊢
  generalize run' world' = found' at ended ⊢
  cases ended with
  | neither => exact .neither
  | both value between between' mid opens reached leads =>
    dsimp only [Cargo.value]
    rw [Value.isSignal_moved]
    split
    · exact .both value between between' mid opens reached leads
    · have known_mid (id : ScopeId) (there : known id) : mid id := opens.keeps id (sub id there)
      have goesOn := after mid value known_mid leads mid (fun _ => id) between between' reached
      exact goesOn.after opens

/-- Going on unless the values ended in a signal. -/
theorem unlessStopped {next : List Value → Run First Value} {next' : List Value → Run Second Value}
    (before : track.Tracks .values known rest rest')
    (after : ∀ (later : ScopeId → Prop) values, (∀ id, known id → later id) →
      (∀ value ∈ values, ∀ id, value.home? = some id → later id) →
      track.Tracks .value later (next values)
        (next' (values.map (Value.moved track.shift.place)))) :
    track.Tracks .value known (rest.unlessStopped next) (rest'.unlessStopped next') := by
  intro later sub world world' worlds
  have ended := before later sub world world' worlds
  unfold Run.unlessStopped
  generalize rest world = found at ended ⊢
  generalize rest' world' = found' at ended ⊢
  cases ended with
  | neither => exact .neither
  | both outcome between between' mid opens reached leads =>
    cases outcome with
    | error signal => exact .both signal between between' mid opens reached leads
    | ok values =>
      have known_mid (id : ScopeId) (there : known id) : mid id := opens.keeps id (sub id there)
      have inside (value : Value) (mem : value ∈ values) (id : ScopeId)
          (home : value.home? = some id) : mid id := leads id ⟨value, mem, home⟩
      have goesOn := after mid values known_mid inside mid (fun _ => id) between between' reached
      exact goesOn.after opens

/-- Putting a value before others. -/
theorem followedBy (before : track.Tracks .value known run run')
    (after : track.Tracks .values known rest rest') :
    track.Tracks .values known (run.followedBy rest) (run'.followedBy rest') := by
  intro later sub world world' worlds
  have ended := before later sub world world' worlds
  unfold Run.followedBy
  generalize run world = found at ended ⊢
  generalize run' world' = found' at ended ⊢
  cases ended with
  | neither => exact .neither
  | both value between between' mid opens reached leads =>
    dsimp only [Cargo.value]
    rw [Value.isSignal_moved]
    split
    · exact .both (Except.error value) between between' mid opens reached leads
    · have known_mid (id : ScopeId) (there : known id) : mid id := opens.keeps id (sub id there)
      have goesOn := after mid known_mid between between' reached
      generalize rest between = others at goesOn ⊢
      generalize rest' between' = others' at goesOn ⊢
      cases goesOn with
      | neither => exact .neither
      | both outcome final final' last opensRest ended leadsRest =>
        have opened := opens.trans opensRest
        cases outcome with
        | error signal =>
          exact .both (Except.error signal) final final' last opened ended leadsRest
        | ok values =>
          refine .both (Except.ok (value :: values)) final final' last opened ended ?_
          rintro id ⟨one, mem, home⟩
          rcases List.mem_cons.mp mem with rfl | later
          · exact opensRest.keeps id (leads id home)
          · exact leadsRest id ⟨one, later, home⟩

/-- Binding a name. -/
theorem bind (scope : ScopeId) (name : Text) {value : Value}
    (inside : ∀ id, value.home? = some id → known id) :
    track.Tracks .value known (.bind scope name value)
      (.bind (track.shift.place scope) name (value.moved track.shift.place)) := by
  intro later sub world world' worlds
  have carried := worlds.carried.set scope name fun id home => sub id (inside id home)
  have opens : Opens later world.forest.scopes.size later
      (world.forest.set scope name value).scopes.size := by
    rw [Forest.size_set]
    exact .refl
  exact .both value _ _ later opens ⟨carried, worlds.held, worlds.agree⟩ fun id home =>
    sub id (inside id home)

/-- Leaving a procedure. -/
theorem unwrapped (inside : track.Tracks .value known run run') :
    track.Tracks .value known run.unwrapped run'.unwrapped := by
  intro later sub world world' worlds
  have ended := inside later sub world world' worlds
  unfold Run.unwrapped
  generalize run world = found at ended ⊢
  generalize run' world' = found' at ended ⊢
  cases ended with
  | neither => exact .neither
  | both value after after' last opens reached leads =>
    dsimp only [Cargo.value]
    rw [Value.unwrapped_moved]
    exact .both value.unwrapped after after' last opens reached fun id home =>
      leads id (Value.home_unwrapped home)

/-- Visiting a node. -/
theorem visit (line : Int) (inside : track.Tracks .value known run run') :
    track.Tracks .value known (first.visit line run) (second.visit line run') := by
  intro later sub world world' worlds
  have answers := track.visit worlds.agree line world.forest world'.forest
  unfold Machine.visit
  generalize first.meter.visit line world.forest world.tally = found at answers ⊢
  generalize second.meter.visit line world'.forest world'.tally = found' at answers ⊢
  cases answers with
  | none => exact flat rfl later sub world world' worlds
  | @some tally tally' agree =>
    exact inside later sub { world with tally } { world' with tally := tally' }
      ⟨worlds.carried, worlds.held, agree⟩

/-- Looking up a name in a known scope. -/
theorem resolve {scope : ScopeId} (there : known scope) (id : Ident) :
    track.Tracks .value known (.read (first.resolve scope id))
      (.read (second.resolve (track.shift.place scope) id)) := by
  intro later sub world world' worlds
  have here : later scope := sub scope there
  have found := worlds.carried.get here id.name
  have moved : second.resolve (track.shift.place scope) id world'.forest =
      (first.resolve scope id world.forest).moved track.shift.place := by
    unfold Machine.resolve
    rw [found, track.find]
    cases world.forest.get? scope id.name with
    | some value => rfl
    | none => cases (first.host.find? id.name).or (Builtin.find? id.name) <;> rfl
  have inside (home : ScopeId) (isHome : (first.resolve scope id world.forest).home? = some home) :
      later home := by
    unfold Machine.resolve at isHome
    split at isHome
    · next value got => exact worlds.carried.known_get here got isHome
    · split at isHome <;> cases isHome
  unfold Run.read
  rw [moved]
  exact .both _ world world' later .refl worlds inside

section

variable {invoke : Invoke First} {other : Invoke Second} (bodies : track.TracksInvoke invoke other)

include bodies

/-- Running a body. -/
theorem enter (body : Block) {outer : Option ScopeId} {bindings : List (Text × Value)}
    (around : ∀ id, outer = some id → known id)
    (inside : ∀ binding ∈ bindings, ∀ id, binding.2.home? = some id → known id) (line : Int) :
    track.Tracks .value known (first.enter invoke body outer bindings line)
      (second.enter other body (outer.map track.shift.place)
        (bindings.map fun binding => (binding.1, binding.2.moved track.shift.place)) line) := by
  intro later sub world world' worlds
  have answers := track.enter worlds.agree line
  unfold Machine.enter
  generalize first.meter.enter line world.tally = found at answers ⊢
  generalize second.meter.enter line world'.tally = found' at answers ⊢
  cases answers with
  | none => exact flat rfl later sub world world' worlds
  | @some tally tally' agree =>
    have opened := worlds.carried.add fun id there => sub id (around id there)
    have bound := opened.setAll
      (fun binding mem id home => Or.inl (sub id (inside binding mem id home)))
      world.forest.scopes.size
    rw [worlds.carried.place_size] at bound
    let grown : ScopeId → Prop := fun id => later id ∨ id = world.forest.scopes.size
    have opens : Opens later world.forest.scopes.size grown
        ((world.forest.add outer).2.setAll world.forest.scopes.size bindings).scopes.size := by
      rw [Forest.size_setAll, Forest.size_add]
      exact .one
    have inner := bodies grown body world.forest.scopes.size (Or.inr rfl) grown (fun _ => id)
      ⟨_, tally⟩ ⟨_, tally'⟩ ⟨bound, fun id there => Or.inl (worlds.held id there), agree⟩
    rw [worlds.carried.place_size] at inner
    have ended : track.Ends .value later world.forest.scopes.size
        (invoke body (world.forest.add outer).1
          ⟨(world.forest.add outer).2.setAll (world.forest.add outer).1 bindings, tally⟩)
        (other body (world'.forest.add (outer.map track.shift.place)).1
          ⟨(world'.forest.add (outer.map track.shift.place)).2.setAll
            (world'.forest.add (outer.map track.shift.place)).1
            (bindings.map fun binding => (binding.1, binding.2.moved track.shift.place)),
            tally'⟩) :=
      inner.after opens
    dsimp only
    generalize invoke body _ _ = found at ended ⊢
    generalize other body _ _ = found' at ended ⊢
    cases ended with
    | neither => exact .neither
    | both value after after' last opens reached leads =>
      dsimp only [Cargo.value]
      rw [Value.unwrapped_moved]
      exact .both value.unwrapped _ _ last opens
        ⟨reached.carried, reached.held, track.leave reached.agree⟩
        fun id home => leads id (Value.home_unwrapped home)

/-- Calling a value. -/
theorem apply {callee : Value} {args : List Value}
    (around : ∀ id, callee.home? = some id → known id)
    (inside : ∀ arg ∈ args, ∀ id, arg.home? = some id → known id) (line : Int) :
    track.Tracks .value known (first.apply invoke callee args line)
      (second.apply other (callee.moved track.shift.place)
        (args.map (Value.moved track.shift.place)) line) := by
  cases callee with
  | procedure params body outer =>
    simp only [Machine.apply, Value.moved, List.length_map]
    split
    · have bound (binding : Text × Value) (mem : binding ∈ params.zip args) (id : ScopeId)
          (home : binding.2.home? = some id) : known id :=
        inside binding.2 (List.of_mem_zip mem).2 id home
      have entered := enter bodies body around bound line
      have zipped : (params.zip args).map
          (fun binding => (binding.1, binding.2.moved track.shift.place)) =
          params.zip (args.map (Value.moved track.shift.place)) := by
        rw [List.zip_map_right]
        rfl
      rwa [zipped] at entered
    · exact flat rfl
  | builtin function =>
    cases function with
    | length =>
      simp only [Machine.apply, Host.answer, Value.moved, Value.length_moved]
      exact flat (Value.home_length args line)
    | host name =>
      simp only [Machine.apply, Value.moved, track.answer]
      intro later sub world world' worlds
      refine .both _ world world' later .refl worlds fun id home => ?_
      rcases track.discreet name args line id home with held | ⟨arg, mem, same⟩
      · exact worlds.held id held
      · exact sub id (inside arg mem id same)
  | _ => exact flat rfl

end

end Tracks

/-! ## Trees -/

section

variable {invoke : Invoke First} {other : Invoke Second}

mutual

/-- Expressions are tracked. -/
theorem expr (bodies : track.TracksInvoke invoke other) {known : ScopeId → Prop} {scope : ScopeId}
    (there : known scope) : ∀ expr : Expr, track.Tracks .value known (expr.eval first invoke scope)
      (expr.eval second other (track.shift.place scope))
  | .absent => .flat rfl
  | .ident id => .visit _ (.resolve there id)
  | .int _ _ | .bool _ _ | .str _ _ | .null _ => .visit _ (.flat rfl)
  | .unary token sign operand => by
    refine .visit _ (.unlessSignal (expr bodies there operand) fun later value _ _ => ?_)
    rw [Value.unary_moved]
    exact .flat (value.home_unary sign token.line)
  | .binary token sign left right => by
    refine .visit _ (.unlessSignal (expr bodies there left) fun later value sub _ =>
      .unlessSignal (expr bodies (sub _ there) right) fun last following _ _ => ?_)
    rw [Value.binary_moved]
    exact .flat (Value.home_binary sign value following token.line)
  | .choice token test yes no => by
    refine .visit _ (.unlessSignal (expr bodies there test) fun later value sub _ => ?_)
    rw [Value.isTruthy_moved]
    split
    · exact block bodies (sub _ there) yes
    · exact block bodies (sub _ there) no
  | .procedure token params body =>
    .visit _ (.done .value (.procedure _ body (some scope)) fun _ home =>
      Option.some.inj home ▸ there)
  | .call token callee args =>
    .visit _ (.unlessSignal (expr bodies there callee) fun later function sub home =>
      .unlessStopped (exprs bodies (sub _ there) args) fun last values onward inside =>
        .apply bodies (fun id mem => onward id (home id mem)) inside token.line)

/-- Lists of expressions are tracked. -/
theorem exprs (bodies : track.TracksInvoke invoke other) {known : ScopeId → Prop} {scope : ScopeId}
    (there : known scope) : ∀ exprs : List Expr,
      track.Tracks .values known (Expr.evalAll first invoke scope exprs)
        (Expr.evalAll second other (track.shift.place scope) exprs)
  | [] => .done .values (.ok []) fun _ ⟨_, mem, _⟩ => nomatch mem
  | head :: rest => .followedBy (expr bodies there head) (exprs bodies there rest)

/-- Statements are tracked. -/
theorem stmt (bodies : track.TracksInvoke invoke other) {known : ScopeId → Prop} {scope : ScopeId}
    (there : known scope) : ∀ stmt : Stmt, track.Tracks .value known (stmt.eval first invoke scope)
      (stmt.eval second other (track.shift.place scope))
  | .absent => .flat rfl
  | .declare _ name value | .assign _ name value => by
    refine .visit _ (.unlessSignal (expr bodies there value) fun later result _ inside => ?_)
    cases name with
    | none => exact .done .value result inside
    | some id => exact .bind scope id.name inside
  | .giveBack _ value =>
    .visit _ (.unlessSignal (expr bodies there value) fun later result _ inside =>
      .done .value (.returned result) inside)
  | .expr _ value => .visit _ (expr bodies there value)
  | .block _ inner => .visit _ (stmts bodies there .null (fun _ home => by cases home) inner)

/-- Lists of statements are tracked. -/
theorem stmts (bodies : track.TracksInvoke invoke other) {known : ScopeId → Prop} {scope : ScopeId}
    (there : known scope) (last : Value) (inside : ∀ id, last.home? = some id → known id) :
    ∀ stmts : List Stmt, track.Tracks .value known (Stmt.evalAll first invoke scope last stmts)
      (Stmt.evalAll second other (track.shift.place scope) (last.moved track.shift.place) stmts)
  | [] => .done .value last inside
  | head :: rest => .unlessSignal (stmt bodies there head) fun _ value sub home =>
    stmts bodies (sub _ there) value home rest

/-- Blocks are tracked. -/
theorem block (bodies : track.TracksInvoke invoke other) {known : ScopeId → Prop} {scope : ScopeId}
    (there : known scope) : ∀ block : Block,
      track.Tracks .value known (block.eval first invoke scope)
        (block.eval second other (track.shift.place scope))
  | .absent => .flat rfl
  | .braces _ inner => stmts bodies there .null (fun _ home => by cases home) inner

end

/-- Nodes are tracked. -/
theorem node (bodies : track.TracksInvoke invoke other) {known : ScopeId → Prop} {scope : ScopeId}
    (there : known scope) : ∀ node : Node, track.Tracks .value known (node.eval first invoke scope)
      (node.eval second other (track.shift.place scope))
  | .program whole =>
    .visit _ (.unwrapped (stmts bodies there .null (fun _ home => by cases home) whole.stmts))
  | .stmt single => stmt bodies there single
  | .expr single => expr bodies there single

end

variable (track)

/-- Bodies are tracked, however deep calls may nest. -/
theorem invoke (bound : Nat) : track.TracksInvoke (first.invoke bound) (second.invoke bound) := by
  induction bound with
  | zero => exact fun _ _ _ _ _ _ _ _ _ => .neither
  | succ bound ih => exact fun known body scope there => block ih there body

end Tracking

end Lengua
