import Lengua.Proofs.Eval.Recast

/-!
# Evaluation under other tokens and other meters

A simulation relates two machines. It recasts tokens and views the tally of the first
machine as one of the second, and asks that meters and hosts agree through it. Then the
evaluation of a recast tree by the second machine mirrors that of the tree by the first:
there is an outcome in one exactly if there is one in the other, and outcomes and worlds
correspond. The parts of an evaluation are mirrored one by one, then trees by induction,
then bodies by induction on the number of nested calls.
-/

namespace Lengua

/-- A way of seeing the runs of one machine as runs of another. -/
structure Simulation {First Second : Type} (first : Machine First) (second : Machine Second) where
  /-- What becomes of tokens and lines. -/
  change : Recast
  /-- What becomes of the tally. -/
  view : First → Second
  /-- The lines of words follow. -/
  word_line : ∀ kind token, (change.word kind token).line = change.line token.line
  /-- The lines of other tokens follow. -/
  other_line : ∀ token, (change.other token).line = change.line token.line
  /-- The meters let the same visits pass. -/
  visit : ∀ line forest tally,
    second.meter.visit (change.line line) (forest.recast change) (view tally) =
      (first.meter.visit line forest tally).map view
  /-- The meters let the same calls pass. -/
  enter : ∀ line tally,
    second.meter.enter (change.line line) (view tally) = (first.meter.enter line tally).map view
  /-- The meters remember the same of a call that has ended. -/
  leave : ∀ tally, second.meter.leave (view tally) = view (first.meter.leave tally)
  /-- The hosts show the same functions. -/
  find : ∀ name, second.host.find? name = first.host.find? name
  /-- The hosts give the same answers. -/
  answer : ∀ name args line,
    second.host.answer (.host name) (args.map (Value.recast change)) (change.line line) =
      (first.host.answer (.host name) args line).recast change

namespace Simulation

variable {First Second : Type} {first : Machine First} {second : Machine Second}
  (sim : Simulation first second)

/-- The world of the second machine that corresponds to one of the first. -/
def world (world : World First) : World Second :=
  ⟨world.forest.recast sim.change, sim.view world.tally⟩

/-- The value that corresponds to one of the first machine. -/
def value (value : Value) : Value := value.recast sim.change

/-- The values that correspond to those of the first machine, or to the signal that ended them. -/
def values : Except Value (List Value) → Except Value (List Value)
  | .error signal => .error (sim.value signal)
  | .ok values => .ok (values.map sim.value)

/-- A step of the second machine that does what a step of the first does. -/
def Mirrors {Outcome : Type} (outcome : Outcome → Outcome) (run : Run First Outcome)
    (other : Run Second Outcome) : Prop :=
  ∀ world, other (sim.world world) = (run world).map (Prod.map outcome sim.world)

/-- A way of running bodies that does what another does. -/
def MirrorsInvoke (invoke : Invoke First) (other : Invoke Second) : Prop :=
  ∀ body scope, sim.Mirrors sim.value (invoke body scope) (other (body.recast sim.change) scope)

variable {sim}

/-! ## Steps -/

namespace Mirrors

/-- Yielding an outcome. -/
theorem done {Outcome : Type} {outcome : Outcome → Outcome} (result : Outcome) :
    sim.Mirrors outcome (.done result) (.done (outcome result)) := fun _ => rfl

/-- Going on unless there is a signal. -/
theorem unlessSignal {run : Run First Value} {other : Run Second Value}
    {next : Value → Run First Value} {otherNext : Value → Run Second Value}
    (mirrors : sim.Mirrors sim.value run other)
    (after : ∀ value, sim.Mirrors sim.value (next value) (otherNext (sim.value value))) :
    sim.Mirrors sim.value (run.unlessSignal next) (other.unlessSignal otherNext) := by
  intro world
  simp only [Run.unlessSignal, mirrors world]
  cases run world with
  | none => rfl
  | some found =>
    obtain ⟨value, world⟩ := found
    simp only [Option.map_some, Prod.map, Simulation.value, Value.isSignal_recast]
    split
    · rfl
    · exact after value world

/-- Going on unless the values ended in a signal. -/
theorem unlessStopped {run : Run First (Except Value (List Value))}
    {other : Run Second (Except Value (List Value))}
    {next : List Value → Run First Value} {otherNext : List Value → Run Second Value}
    (mirrors : sim.Mirrors sim.values run other)
    (after : ∀ values, sim.Mirrors sim.value (next values) (otherNext (values.map sim.value))) :
    sim.Mirrors sim.value (run.unlessStopped next) (other.unlessStopped otherNext) := by
  intro world
  simp only [Run.unlessStopped, mirrors world]
  cases run world with
  | none => rfl
  | some found =>
    obtain ⟨_ | values, world⟩ := found
    · rfl
    · exact after values world

/-- Putting a value before others. -/
theorem followedBy {run : Run First Value} {other : Run Second Value}
    {rest : Run First (Except Value (List Value))}
    {otherRest : Run Second (Except Value (List Value))}
    (mirrors : sim.Mirrors sim.value run other) (after : sim.Mirrors sim.values rest otherRest) :
    sim.Mirrors sim.values (run.followedBy rest) (other.followedBy otherRest) := by
  intro world
  simp only [Run.followedBy, mirrors world]
  cases run world with
  | none => rfl
  | some found =>
    obtain ⟨value, world⟩ := found
    simp only [Option.map_some, Prod.map, Simulation.value, Value.isSignal_recast, after world]
    split
    · rfl
    · cases rest world with
      | none => rfl
      | some found => obtain ⟨_ | values, world⟩ := found <;> rfl

/-- Binding a name. -/
theorem bind (scope : ScopeId) (name : Text) (value : Value) :
    sim.Mirrors sim.value (.bind scope name value) (.bind scope name (sim.value value)) := by
  intro world
  simp only [Run.bind, Simulation.world, Simulation.value, Forest.set_recast]
  rfl

/-- Binding the target of a statement. -/
theorem bindTarget (scope : ScopeId) (name : Option Ident) (value : Value) :
    sim.Mirrors sim.value (.bindTarget scope name value)
      (.bindTarget scope (name.map (Ident.recast sim.change)) (sim.value value)) := by
  cases name with
  | none => exact done value
  | some id => exact bind scope id.name value

/-- Leaving a procedure. -/
theorem unwrapped {run : Run First Value} {other : Run Second Value}
    (mirrors : sim.Mirrors sim.value run other) :
    sim.Mirrors sim.value run.unwrapped other.unwrapped := by
  intro world
  simp only [Run.unwrapped, mirrors world]
  cases run world with
  | none => rfl
  | some found => simp [Simulation.value]

/-- Visiting a node. -/
theorem visit {line otherLine : Int} {run : Run First Value} {other : Run Second Value}
    (follows : otherLine = sim.change.line line) (mirrors : sim.Mirrors sim.value run other) :
    sim.Mirrors sim.value (first.visit line run) (second.visit otherLine other) := by
  intro world
  simp only [Machine.visit, Simulation.world, follows, sim.visit]
  cases first.meter.visit line world.forest world.tally with
  | none => rfl
  | some tally => exact mirrors { world with tally }

/-- Looking up a name. -/
theorem resolve (scope : ScopeId) (id : Ident) :
    sim.Mirrors sim.value (.read (first.resolve scope id))
      (.read (second.resolve scope (id.recast sim.change))) := by
  intro world
  have found : second.resolve scope (id.recast sim.change) (world.forest.recast sim.change) =
      sim.value (first.resolve scope id world.forest) := by
    simp only [Machine.resolve, Ident.recast, Forest.get_recast, sim.find, sim.other_line]
    cases world.forest.get? scope id.name with
    | some value => rfl
    | none => cases (first.host.find? id.name).or (Builtin.find? id.name) <;> rfl
  simp only [Run.read, Simulation.world, found]
  rfl

/-- Running a body. -/
theorem enter {invoke : Invoke First} {other : Invoke Second}
    (bodies : sim.MirrorsInvoke invoke other) (body : Block) (outer : Option ScopeId)
    (bindings : List (Text × Value)) (line : Int) :
    sim.Mirrors sim.value (first.enter invoke body outer bindings line)
      (second.enter other (body.recast sim.change) outer
        (bindings.map fun binding => (binding.1, sim.value binding.2)) (sim.change.line line)) := by
  intro world
  simp only [Machine.enter, Simulation.world, sim.enter]
  cases first.meter.enter line world.tally with
  | none => rfl
  | some tally =>
    simp only [Option.map_some, Forest.add_recast, Simulation.value, Forest.setAll_recast]
    have inside := bodies body (world.forest.add outer).1
      ⟨(world.forest.add outer).2.setAll (world.forest.add outer).1 bindings, tally⟩
    simp only [Simulation.world] at inside
    rw [inside]
    cases invoke body (world.forest.add outer).1
        ⟨(world.forest.add outer).2.setAll (world.forest.add outer).1 bindings, tally⟩ with
    | none => rfl
    | some found => simp [Simulation.value, Simulation.world, sim.leave]

/-- Calling a value. -/
theorem apply {invoke : Invoke First} {other : Invoke Second}
    (bodies : sim.MirrorsInvoke invoke other) (callee : Value) (args : List Value) (line : Int) :
    sim.Mirrors sim.value (first.apply invoke callee args line)
      (second.apply other (sim.value callee) (args.map sim.value) (sim.change.line line)) := by
  cases callee with
  | procedure params body outer =>
    simp only [Machine.apply, Simulation.value, Value.recast, List.length_map]
    split
    · have entered := enter bodies body outer (params.zip args) line
      have zipped : (params.zip args).map (fun binding => (binding.1, sim.value binding.2)) =
          params.zip (args.map sim.value) := by
        rw [List.zip_map_right]
        rfl
      rwa [zipped] at entered
    · exact done _
  | builtin function =>
    have answer : second.host.answer function (args.map sim.value) (sim.change.line line) =
        sim.value (first.host.answer function args line) := by
      cases function with
      | length => exact Value.length_recast args line
      | host name => exact sim.answer name args line
    have mirrors : sim.Mirrors sim.value (.done (first.host.answer function args line))
        (.done (sim.value (first.host.answer function args line))) := done _
    rwa [← answer] at mirrors
  | _ => exact done _

end Mirrors

/-! ## Trees -/

section

variable {invoke : Invoke First} {other : Invoke Second}

mutual

/-- Expressions are mirrored. -/
theorem expr (bodies : sim.MirrorsInvoke invoke other) (scope : ScopeId) : ∀ expr : Expr,
    sim.Mirrors sim.value (expr.eval first invoke scope)
      ((expr.recast sim.change).eval second other scope)
  | .absent => .done _
  | .ident id => .visit (sim.other_line _) (.resolve scope id)
  | .int _ _ | .bool _ _ | .str _ _ | .null _ => .visit (sim.other_line _) (.done _)
  | .unary token sign operand => by
    refine .visit (sim.other_line token)
      (.unlessSignal (expr bodies scope operand) fun value => ?_)
    rw [sim.other_line, Simulation.value, Value.unary_recast]
    exact .done _
  | .binary token sign left right => by
    refine .visit (sim.other_line token) (.unlessSignal (expr bodies scope left) fun value =>
      .unlessSignal (expr bodies scope right) fun following => ?_)
    rw [sim.other_line, Simulation.value, Simulation.value, Value.binary_recast]
    exact .done _
  | .choice token test yes no => by
    refine .visit (sim.other_line token) (.unlessSignal (expr bodies scope test) fun value => ?_)
    rw [Simulation.value, Value.isTruthy_recast]
    split
    · exact block bodies scope yes
    · exact block bodies scope no
  | .procedure token params body => by
    have names : (params.map (Ident.recast sim.change)).map Ident.name = params.map Ident.name := by
      rw [List.map_map]
      rfl
    refine .visit (sim.word_line _ token) ?_
    rw [names]
    exact .done (Value.procedure _ body _)
  | .call token callee args => by
    refine .visit (sim.other_line token) (.unlessSignal (expr bodies scope callee) fun function =>
      .unlessStopped (exprs bodies scope args) fun values => ?_)
    rw [sim.other_line]
    exact .apply bodies function values token.line

/-- Lists of expressions are mirrored. -/
theorem exprs (bodies : sim.MirrorsInvoke invoke other) (scope : ScopeId) : ∀ exprs : List Expr,
    sim.Mirrors sim.values (Expr.evalAll first invoke scope exprs)
      (Expr.evalAll second other scope (Expr.recastAll sim.change exprs))
  | [] => .done _
  | head :: rest => .followedBy (expr bodies scope head) (exprs bodies scope rest)

/-- Statements are mirrored. -/
theorem stmt (bodies : sim.MirrorsInvoke invoke other) (scope : ScopeId) : ∀ stmt : Stmt,
    sim.Mirrors sim.value (stmt.eval first invoke scope)
      ((stmt.recast sim.change).eval second other scope)
  | .absent => .done _
  | .declare _ name value => .visit (sim.word_line _ _)
    (.unlessSignal (expr bodies scope value) fun result => .bindTarget scope name result)
  | .assign _ name value => .visit (sim.other_line _)
    (.unlessSignal (expr bodies scope value) fun result => .bindTarget scope name result)
  | .giveBack _ value => .visit (sim.word_line _ _)
    (.unlessSignal (expr bodies scope value) fun result => .done (Value.returned result))
  | .expr _ value => .visit (sim.other_line _) (expr bodies scope value)
  | .block _ inner => .visit (sim.other_line _) (stmts bodies scope .null inner)

/-- Lists of statements are mirrored. -/
theorem stmts (bodies : sim.MirrorsInvoke invoke other) (scope : ScopeId) (last : Value) :
    ∀ stmts : List Stmt, sim.Mirrors sim.value (Stmt.evalAll first invoke scope last stmts)
      (Stmt.evalAll second other scope (sim.value last) (Stmt.recastAll sim.change stmts))
  | [] => .done last
  | head :: rest => .unlessSignal (stmt bodies scope head) fun value =>
    stmts bodies scope value rest

/-- Blocks are mirrored. -/
theorem block (bodies : sim.MirrorsInvoke invoke other) (scope : ScopeId) : ∀ block : Block,
    sim.Mirrors sim.value (block.eval first invoke scope)
      ((block.recast sim.change).eval second other scope)
  | .absent => .done _
  | .braces _ inner => stmts bodies scope .null inner

end

/-- Nodes are mirrored whose lines follow. -/
theorem node (bodies : sim.MirrorsInvoke invoke other) (scope : ScopeId) {node : Node}
    (follows : (node.recast sim.change).line = sim.change.line node.line) :
    sim.Mirrors sim.value (node.eval first invoke scope)
      ((node.recast sim.change).eval second other scope) := by
  cases node with
  | program whole => exact .visit follows (.unwrapped (stmts bodies scope .null whole.stmts))
  | stmt single => exact stmt bodies scope single
  | expr single => exact expr bodies scope single

end

variable (sim)

/-- Bodies are mirrored, however deep calls may nest. -/
theorem invoke (bound : Nat) : sim.MirrorsInvoke (first.invoke bound) (second.invoke bound) := by
  induction bound with
  | zero => exact fun _ _ _ => rfl
  | succ bound ih => exact fun body scope => block ih scope body

end Simulation

end Lengua
