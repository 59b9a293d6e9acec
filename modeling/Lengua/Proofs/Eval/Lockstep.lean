import Lengua.Proofs.Eval.Tally

/-!
# Evaluations in step

A machine may be stricter than another, and break a run off where the other goes on. Until then
the two runs are in step: they have the same scopes, and their tallies agree. If the strict one
is broken off, its error reaches the top from any depth, since an error ends every construct it
occurs in, and the scopes stay as they were at that moment. The other machine has then gone past
that point, and its tally shows so however it ends.

The strict machine may also follow fewer nested calls, so a machine in step with itself gives
the same outcome however many more nested calls are followed.
-/

namespace Lengua

/-- How two meters answer: both let pass, both refuse, or the first refuses alone. -/
inductive Meter.Answers {Strict Free : Type} (agrees : Strict → Free → Prop)
    (broken : Free → Prop) : Option Strict → Option Free → Prop where
  /-- Both let pass. -/
  | both {tally : Strict} {other : Free} (agree : agrees tally other) :
    Answers agrees broken (some tally) (some other)
  /-- Both refuse. -/
  | neither : Answers agrees broken none none
  /-- The first refuses alone. -/
  | alone {other : Free} (past : broken other) : Answers agrees broken none (some other)

namespace Meter.Answers

variable {Strict Free : Type} {agrees : Strict → Free → Prop} {broken : Free → Prop}
  {found : Option Free}

/-- What the strict meter lets pass the other does too. -/
theorem passed {tally : Strict} (answers : Answers agrees broken (some tally) found) :
    ∃ other, found = some other ∧ agrees tally other := by
  cases answers with
  | both agree => exact ⟨_, rfl, agree⟩

/-- What the strict meter refuses the other refuses too, or goes past it. -/
theorem refused (answers : Answers agrees broken none found) :
    found = none ∨ ∃ other, found = some other ∧ broken other := by
  cases answers with
  | neither => exact .inl rfl
  | alone past => exact .inr ⟨_, rfl, past⟩

end Meter.Answers

/-- Two machines with one host of which the first may be broken off where the second goes on. -/
structure Lockstep {Strict Free : Type} (strict : Machine Strict) (free : Machine Free) where
  /-- The tallies of runs in step. -/
  agrees : Strict → Free → Prop
  /-- The error a run is broken off with, the scopes it leaves, and the tallies of the second
  machine past that point. -/
  broken : Value → Forest → Free → Prop
  /-- The machines have one host. -/
  host : strict.host = free.host
  /-- A run is broken off with an error. -/
  isError : ∀ {error forest tally}, broken error forest tally → error.isError = true
  /-- How the meters answer to a visit. -/
  visit : ∀ {tally other}, agrees tally other → ∀ line forest,
    Meter.Answers agrees (broken (.error .gasExhausted line) forest)
      (strict.meter.visit line forest tally) (free.meter.visit line forest other)
  /-- How the meters answer to a call. -/
  enter : ∀ {tally other}, agrees tally other → ∀ line forest,
    Meter.Answers agrees (broken (.error .tooDeep line) forest)
      (strict.meter.enter line tally) (free.meter.enter line other)
  /-- The tallies still agree when a call has ended. -/
  leave : ∀ {tally other}, agrees tally other →
    agrees (strict.meter.leave tally) (free.meter.leave other)
  /-- The second machine never comes back to the point where the first was broken off. -/
  keeps : ∀ error forest, free.meter.Keeps (broken error forest)

namespace Lockstep

variable {Strict Free : Type} {strict : Machine Strict} {free : Machine Free}
  (step : Lockstep strict free) {Outcome : Type}

/-- What a run is broken off with is a signal. -/
theorem isSignal_of_past {error : Value} {forest : Forest}
    (past : ∃ tally, step.broken error forest tally) : error.isSignal = true := by
  obtain ⟨tally, isPast⟩ := past
  have isError := step.isError isPast
  cases error with
  | error fault line => rfl
  | _ => cases isError

/-- What a run is broken off with leaves a procedure as it is. -/
theorem unwrapped_of_past {error : Value} {forest : Forest}
    (past : ∃ tally, step.broken error forest tally) : error.unwrapped = error := by
  obtain ⟨tally, isPast⟩ := past
  have isError := step.isError isPast
  cases error with
  | error fault line => rfl
  | _ => cases isError

/-- How an outcome of the strict machine compares with what the other finds. -/
inductive Compares (stopped : Value → Outcome) (found : Option (Outcome × World Free))
    (outcome : Outcome) (after : World Strict) : Prop where
  /-- The runs are still in step. -/
  | inStep (tally : Free) (same : found = some (outcome, ⟨after.forest, tally⟩))
    (agree : step.agrees after.tally tally)
  /-- The first was broken off, and the second, if it ends, has gone past that point. -/
  | brokenOff (error : Value) (stop : outcome = stopped error)
    (past : ∃ tally, step.broken error after.forest tally)
    (later : ∀ result last, found = some (result, last) →
      step.broken error after.forest last.tally)

/-- Every outcome of a step of the strict machine compares with what a step of the other finds. -/
def Follows (stopped : Value → Outcome) (run : Run Strict Outcome) (other : Run Free Outcome) :
    Prop :=
  ∀ world tally, step.agrees world.tally tally → ∀ outcome after,
    run world = some (outcome, after) →
      step.Compares stopped (other ⟨world.forest, tally⟩) outcome after

/-- A step of the second machine that does not come back to a point it has gone past. -/
def GoesOn (other : Run Free Outcome) : Prop :=
  ∀ error forest, other.Moves fun before after =>
    step.broken error forest before → step.broken error forest after

/-! ## Steps -/

namespace Follows

variable {step}

/-- Steps that give the same and change the scopes in the same way. -/
theorem ofEffect {stopped : Value → Outcome} (effect : Forest → Outcome × Forest)
    {run : Run Strict Outcome} {other : Run Free Outcome}
    (first : ∀ world, run world = some ((effect world.forest).1,
      { world with forest := (effect world.forest).2 }))
    (second : ∀ world, other world = some ((effect world.forest).1,
      { world with forest := (effect world.forest).2 })) :
    step.Follows stopped run other := by
  intro world tally agree outcome after ran
  rw [first] at ran
  cases ran
  exact .inStep tally (second _) agree

/-- Yielding an outcome. -/
theorem done {stopped : Value → Outcome} (outcome : Outcome) :
    step.Follows stopped (.done outcome) (.done outcome) :=
  ofEffect (fun forest => (outcome, forest)) (fun _ => rfl) fun _ => rfl

section

variable {run : Run Strict Value} {run' : Run Free Value}
  {rest : Run Strict (Except Value (List Value))} {rest' : Run Free (Except Value (List Value))}

/-- Going on unless there is a signal. -/
theorem unlessSignal {next : Value → Run Strict Value} {next' : Value → Run Free Value}
    (first : step.Follows id run run')
    (second : ∀ value, step.Follows id (next value) (next' value))
    (goesOn : ∀ value, step.GoesOn (next' value)) :
    step.Follows id (run.unlessSignal next) (run'.unlessSignal next') := by
  intro world tally agree outcome after ran
  obtain ⟨value, between, ranFirst, ending⟩ := Run.unlessSignal_eq_some_iff.mp ran
  cases first world tally agree value between ranFirst with
  | inStep mid same agreeMid =>
    rcases ending with ⟨signal, rfl, rfl⟩ | ⟨plain, ranSecond⟩
    · exact .inStep mid (Run.unlessSignal_eq_some_iff.mpr
        ⟨_, _, same, .inl ⟨signal, rfl, rfl⟩⟩) agreeMid
    · have goes : run'.unlessSignal next' ⟨world.forest, tally⟩ =
          next' value ⟨between.forest, mid⟩ := by
        simp [Run.unlessSignal, same, plain]
      rw [goes]
      exact second value between mid agreeMid outcome after ranSecond
  | brokenOff error stop past later =>
    have signal : value.isSignal = true := by
      rw [stop]
      exact step.isSignal_of_past past
    have ended : outcome = value ∧ after = between := by
      rcases ending with ⟨-, ended⟩ | ⟨plain, -⟩
      · exact ended
      · rw [signal] at plain
        cases plain
    obtain ⟨rfl, rfl⟩ := ended
    refine .brokenOff error stop past fun result last ranOther => ?_
    obtain ⟨reached, mid, ranMid, endingOther⟩ := Run.unlessSignal_eq_some_iff.mp ranOther
    have passed := later reached mid ranMid
    rcases endingOther with ⟨-, -, rfl⟩ | ⟨-, ranLast⟩
    · exact passed
    · exact goesOn reached error _ mid result last ranLast passed

/-- Going on unless the values ended in a signal. -/
theorem unlessStopped {next : List Value → Run Strict Value} {next' : List Value → Run Free Value}
    (first : step.Follows .error rest rest')
    (second : ∀ values, step.Follows id (next values) (next' values))
    (goesOn : ∀ values, step.GoesOn (next' values)) :
    step.Follows id (rest.unlessStopped next) (rest'.unlessStopped next') := by
  intro world tally agree outcome after ran
  rcases Run.unlessStopped_eq_some_iff.mp ran with stopped | ⟨values, between, all, ranSecond⟩
  · cases first world tally agree _ after stopped with
    | inStep mid same agreeMid =>
      exact .inStep mid (Run.unlessStopped_eq_some_iff.mpr (.inl same)) agreeMid
    | brokenOff error stop past later =>
      refine .brokenOff error (Except.error.inj stop) past fun result last ranOther => ?_
      rcases Run.unlessStopped_eq_some_iff.mp ranOther with
        stoppedOther | ⟨reached, mid, ranMid, ranLast⟩
      · exact later _ last stoppedOther
      · exact goesOn reached error _ mid result last ranLast (later _ mid ranMid)
  · cases first world tally agree _ between all with
    | inStep mid same agreeMid =>
      have goes : rest'.unlessStopped next' ⟨world.forest, tally⟩ =
          next' values ⟨between.forest, mid⟩ := by
        simp [Run.unlessStopped, same]
      rw [goes]
      exact second values between mid agreeMid outcome after ranSecond
    | brokenOff stopError stop => cases stop

/-- Putting a value before others. -/
theorem followedBy (first : step.Follows id run run') (second : step.Follows .error rest rest')
    (goesOn : step.GoesOn rest') :
    step.Follows .error (run.followedBy rest) (run'.followedBy rest') := by
  intro world tally agree outcome after ran
  obtain ⟨value, between, ranFirst, ending⟩ := Run.followedBy_eq_some_iff.mp ran
  cases first world tally agree value between ranFirst with
  | inStep mid same agreeMid =>
    rcases ending with ⟨signal, rfl, rfl⟩ | ⟨plain, others, ranSecond, rfl⟩
    · exact .inStep mid (Run.followedBy_eq_some_iff.mpr
        ⟨_, _, same, .inl ⟨signal, rfl, rfl⟩⟩) agreeMid
    · cases second between mid agreeMid others after ranSecond with
      | inStep final sameRest agreeFinal =>
        exact .inStep final (Run.followedBy_eq_some_iff.mpr
          ⟨_, _, same, .inr ⟨plain, others, sameRest, rfl⟩⟩) agreeFinal
      | brokenOff error stop past later =>
        rw [stop]
        refine .brokenOff error rfl past fun result last ranOther => ?_
        obtain ⟨reached, there, ranMid, endingOther⟩ := Run.followedBy_eq_some_iff.mp ranOther
        rw [same] at ranMid
        cases ranMid
        rcases endingOther with ⟨signal, -⟩ | ⟨-, found, ranLast, -⟩
        · rw [signal] at plain
          cases plain
        · exact later found last ranLast
  | brokenOff error stop past later =>
    have signal : value.isSignal = true := by
      rw [stop]
      exact step.isSignal_of_past past
    have ended : outcome = .error value ∧ after = between := by
      rcases ending with ⟨-, ended⟩ | ⟨plain, -⟩
      · exact ended
      · rw [signal] at plain
        cases plain
    obtain ⟨rfl, rfl⟩ := ended
    refine .brokenOff error (congrArg _ stop) past fun result last ranOther => ?_
    obtain ⟨reached, mid, ranMid, endingOther⟩ := Run.followedBy_eq_some_iff.mp ranOther
    have passed := later reached mid ranMid
    rcases endingOther with ⟨-, -, rfl⟩ | ⟨-, found, ranLast, -⟩
    · exact passed
    · exact goesOn error _ mid found last ranLast passed

/-- Leaving a procedure. -/
theorem unwrapped (inside : step.Follows id run run') :
    step.Follows id run.unwrapped run'.unwrapped := by
  intro world tally agree outcome after ran
  obtain ⟨value, ranInside, rfl⟩ := Run.unwrapped_eq_some_iff.mp ran
  cases inside world tally agree value after ranInside with
  | inStep mid same agreeMid =>
    exact .inStep mid (Run.unwrapped_eq_some_iff.mpr ⟨value, same, rfl⟩) agreeMid
  | brokenOff error stop past later =>
    have kept : value.unwrapped = error := by
      rw [stop]
      exact step.unwrapped_of_past past
    refine .brokenOff error kept past fun result last ranOther => ?_
    obtain ⟨found, ranLast, -⟩ := Run.unwrapped_eq_some_iff.mp ranOther
    exact later found last ranLast

/-- Visiting a node. -/
theorem visit (line : Int) (inside : step.Follows id run run') (goesOn : step.GoesOn run') :
    step.Follows id (strict.visit line run) (free.visit line run') := by
  intro world tally agree outcome after ran
  have answers := step.visit agree line world.forest
  rcases Machine.visit_eq_some_iff.mp ran with ⟨refused, rfl, rfl⟩ | ⟨next, passed, ranInside⟩
  · rw [refused] at answers
    rcases answers.refused with alike | ⟨other, passedOther, past⟩
    · exact .inStep tally (Machine.visit_eq_some_iff.mpr (.inl ⟨alike, rfl, rfl⟩)) agree
    · refine .brokenOff _ rfl ⟨other, past⟩ fun result last ranOther => ?_
      have goes : free.visit line run' ⟨after.forest, tally⟩ = run' ⟨after.forest, other⟩ := by
        simp [Machine.visit, passedOther]
      rw [goes] at ranOther
      exact goesOn _ _ _ result last ranOther past
  · rw [passed] at answers
    obtain ⟨other, passedOther, agreeNext⟩ := answers.passed
    have goes : free.visit line run' ⟨world.forest, tally⟩ = run' ⟨world.forest, other⟩ := by
      simp [Machine.visit, passedOther]
    rw [goes]
    exact inside { world with tally := next } other agreeNext outcome after ranInside

end

section

variable {invoke : Invoke Strict} {other : Invoke Free}

/-- Entering a body. -/
theorem enter (bodies : ∀ body scope, step.Follows id (invoke body scope) (other body scope))
    (goesOn : ∀ body scope, step.GoesOn (other body scope)) (body : Block)
    (outer : Option ScopeId) (bindings : List (Text × Value)) (line : Int) :
    step.Follows id (strict.enter invoke body outer bindings line)
      (free.enter other body outer bindings line) := by
  intro world tally agree outcome after ran
  have answers := step.enter agree line world.forest
  rcases Machine.enter_eq_some_iff.mp ran with
    ⟨refused, rfl, rfl⟩ | ⟨next, value, inside, passed, ranBody, rfl, rfl⟩
  · rw [refused] at answers
    rcases answers.refused with alike | ⟨entered, passedOther, past⟩
    · exact .inStep tally (Machine.enter_eq_some_iff.mpr (.inl ⟨alike, rfl, rfl⟩)) agree
    · refine .brokenOff _ rfl ⟨entered, past⟩ fun result last ranOther => ?_
      rcases Machine.enter_eq_some_iff.mp ranOther with
        ⟨refusedOther, -⟩ | ⟨reached, found, ended, there, ranLast, -, rfl⟩
      · rw [passedOther] at refusedOther
        cases refusedOther
      · rw [passedOther] at there
        cases there
        have kept := goesOn body _ _ _ _ found ended ranLast past
        exact (step.keeps _ _).leave kept
  · rw [passed] at answers
    obtain ⟨entered, passedOther, agreeNext⟩ := answers.passed
    cases bodies body _ _ entered agreeNext value inside ranBody with
    | inStep mid same agreeMid =>
      refine .inStep (free.meter.leave mid) ?_ (step.leave agreeMid)
      exact Machine.enter_eq_some_iff.mpr
        (.inr ⟨entered, value, _, passedOther, same, rfl, rfl⟩)
    | brokenOff error stop past later =>
      have kept : value.unwrapped = error := by
        rw [stop]
        exact step.unwrapped_of_past past
      refine .brokenOff error kept past fun result last ranOther => ?_
      rcases Machine.enter_eq_some_iff.mp ranOther with
        ⟨refusedOther, -⟩ | ⟨reached, found, ended, there, ranLast, -, rfl⟩
      · rw [passedOther] at refusedOther
        cases refusedOther
      · rw [passedOther] at there
        cases there
        exact (step.keeps _ _).leave (later found ended ranLast)

end

end Follows

/-! ## Trees and bodies -/

/-- Steps in step, of which the second does not come back to a point it has gone past. -/
def Together (stopped : Value → Outcome) (run : Run Strict Outcome) (other : Run Free Outcome) :
    Prop :=
  step.Follows stopped run other ∧ step.GoesOn other

namespace Together

variable {step}

/-- Going on unless there is a signal. -/
theorem unlessSignal {run : Run Strict Value} {run' : Run Free Value}
    {next : Value → Run Strict Value} {next' : Value → Run Free Value}
    (first : step.Together id run run')
    (second : ∀ value, step.Together id (next value) (next' value)) :
    step.Together id (run.unlessSignal next) (run'.unlessSignal next') := by
  constructor
  · exact .unlessSignal first.1 (fun value => (second value).1) fun value => (second value).2
  · exact fun error forest => .unlessSignal (step.keeps error forest).moves
      (first.2 error forest) fun value => (second value).2 error forest

/-- Going on unless the values ended in a signal. -/
theorem unlessStopped {run : Run Strict (Except Value (List Value))}
    {run' : Run Free (Except Value (List Value))}
    {next : List Value → Run Strict Value} {next' : List Value → Run Free Value}
    (first : step.Together .error run run')
    (second : ∀ values, step.Together id (next values) (next' values)) :
    step.Together id (run.unlessStopped next) (run'.unlessStopped next') := by
  constructor
  · exact .unlessStopped first.1 (fun values => (second values).1) fun values => (second values).2
  · exact fun error forest => .unlessStopped (step.keeps error forest).moves
      (first.2 error forest) fun values => (second values).2 error forest

/-- Visiting a node. -/
theorem visit (line : Int) {run : Run Strict Value} {run' : Run Free Value}
    (inside : step.Together id run run') :
    step.Together id (strict.visit line run) (free.visit line run') := by
  constructor
  · exact .visit line inside.1 inside.2
  · exact fun error forest => .visit (step.keeps error forest).moves line (inside.2 error forest)

/-- Calling a value. -/
theorem apply {invoke : Invoke Strict} {other : Invoke Free}
    (bodies : ∀ body scope, step.Together id (invoke body scope) (other body scope))
    (callee : Value) (args : List Value) (line : Int) :
    step.Together id (strict.apply invoke callee args line)
      (free.apply other callee args line) := by
  constructor
  · refine strict.apply_related free invoke other (step.Follows id) step.host Follows.done line
      (fun body outer bindings => ?_) callee args
    exact .enter (fun body scope => (bodies body scope).1) (fun body scope => (bodies body scope).2)
      body outer bindings line
  · exact fun error forest => .apply (step.keeps error forest).moves
      (fun body scope => (bodies body scope).2 error forest) callee args line

end Together

/-- The steps of evaluations in step. -/
def parallel {invoke : Invoke Strict} {other : Invoke Free}
    (bodies : ∀ body scope, step.Together id (invoke body scope) (other body scope))
    (scope : ScopeId) : Parallel strict invoke free other scope where
  value := step.Together id
  values := step.Together .error
  done result := ⟨.done result, fun error forest => .done (step.keeps error forest).moves.refl _⟩
  nil := ⟨.done _, fun error forest => .done (step.keeps error forest).moves.refl _⟩
  resolve id := by
    refine ⟨.ofEffect (fun forest => (strict.resolve scope id forest, forest)) (fun _ => rfl)
      fun world => ?_, fun error forest => .read (step.keeps error forest).moves.refl _⟩
    simp only [Run.read, Machine.resolve, step.host]
  bind name result := ⟨.ofEffect (fun forest => (result, forest.set scope name result))
    (fun _ => rfl) fun _ => rfl, fun error forest =>
      .bind (step.keeps error forest).moves.refl scope name result⟩
  unlessSignal first second := .unlessSignal first second
  followedBy first second := ⟨.followedBy first.1 second.1 second.2, fun error forest =>
    .followedBy (step.keeps error forest).moves (first.2 error forest) (second.2 error forest)⟩
  unwrapped inside := ⟨.unwrapped inside.1, fun error forest => .unwrapped (inside.2 error forest)⟩
  visit line _ _ inside := .visit line inside
  call line _ _ _ _ callee args := .visit line (.unlessSignal callee fun function =>
    .unlessStopped args fun values => .apply bodies function values line)

/-- Bodies are in step, if the second machine follows at least as many nested calls. -/
theorem invoke {bound more : Nat} (le : bound ≤ more) (body : Block) (scope : ScopeId) :
    step.Together id (strict.invoke bound body scope) (free.invoke more body scope) := by
  induction bound generalizing more body scope with
  | zero =>
    refine ⟨fun _ _ _ _ _ ran => (nomatch ran), fun error forest => ?_⟩
    exact (step.keeps error forest).moves.invoke more body scope
  | succ bound ih =>
    cases more with
    | zero => omega
    | succ more =>
      have bodies := ih (Nat.le_of_succ_le_succ le)
      exact (step.parallel bodies scope).block body

/-- Nodes are in step, if the second machine follows at least as many nested calls. -/
theorem node {bound more : Nat} (le : bound ≤ more) (node : Node) (scope : ScopeId) :
    step.Follows id (node.eval strict (strict.invoke bound) scope)
      (node.eval free (free.invoke more) scope) :=
  ((step.parallel (step.invoke le) scope).node node).1

/-- A machine is in step with itself. -/
def self (machine : Machine Free) : Lockstep machine machine where
  agrees tally other := tally = other
  broken _ _ _ := False
  host := rfl
  isError := False.elim
  visit := by
    rintro tally _ rfl line forest
    cases machine.meter.visit line forest tally with
    | none => exact .neither
    | some next => exact .both rfl
  enter := by
    rintro tally _ rfl line forest
    cases machine.meter.enter line tally with
    | none => exact .neither
    | some next => exact .both rfl
  leave := by
    rintro tally _ rfl
    rfl
  keeps _ _ := ⟨fun _ => id, fun _ => id, id⟩

/-- Steps of one machine in step with each other have the same outcomes. -/
theorem Follows.ofSelf {machine : Machine Free} {stopped : Value → Outcome}
    {run other : Run Free Outcome} (follows : (self machine).Follows stopped run other)
    {world after : World Free} {outcome : Outcome} (ended : run world = some (outcome, after)) :
    other world = some (outcome, after) := by
  cases follows world world.tally rfl outcome after ended with
  | inStep tally same agree =>
    rw [same, ← show after.tally = tally from agree]
  | brokenOff error stop past later => exact past.elim fun _ impossible => impossible.elim

end Lockstep

/-- An outcome stays the same if more nested calls are followed. -/
theorem Node.eval_invoke_mono {Tally : Type} {machine : Machine Tally} {bound more : Nat}
    (le : bound ≤ more) {node : Node} {scope : ScopeId} {world after : World Tally} {value : Value}
    (ended : node.eval machine (machine.invoke bound) scope world = some (value, after)) :
    node.eval machine (machine.invoke more) scope world = some (value, after) :=
  ((Lockstep.self machine).node le node scope).ofSelf ended

end Lengua
