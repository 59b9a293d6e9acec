import Lengua.Proofs.Eval.Canonical
import Lengua.Proofs.Eval.Tally
import Lengua.Proofs.Eval.Task
import Lengua.Proofs.Session.Line

/-!
# A session and a batch run

A session evaluates its lines one by one, each with the full limits; a batch run evaluates
all of them as one program. Without a bound on visits the limits are the same before every
line, since a run leaves as many calls active as it found. So both runs go through the same
statements, on other lines, and both are mirrored by the run of the outlines. The two agree
up to the first signal: after that the session goes on with its next line, while the batch
run has ended.
-/

namespace Lengua

/-! ## Statements one after the other -/

/-- A signal ends a list of statements, whatever follows it. -/
theorem Stmt.evalAll_append_of_signal {Tally : Type} {machine : Machine Tally}
    {invoke : Invoke Tally} {scope : ScopeId} {world between : World Tally} {before : List Stmt}
    {last value : Value}
    (ran : Stmt.evalAll machine invoke scope last before world = some (value, between))
    (plain : last.isSignal = false) (signal : value.isSignal = true) (rest : List Stmt) :
    Stmt.evalAll machine invoke scope last (before ++ rest) world = some (value, between) := by
  induction before generalizing last world with
  | nil =>
    cases ran
    rw [plain] at signal
    cases signal
  | cons stmt later ih =>
    rw [Stmt.evalAll] at ran
    rw [List.cons_append, Stmt.evalAll]
    obtain ⟨first, mid, ranFirst, ending⟩ := Run.unlessSignal_eq_some_iff.mp ran
    rcases ending with ⟨stops, rfl, rfl⟩ | ⟨goesOn, ranLater⟩
    · exact Run.unlessSignal_eq_some_iff.mpr ⟨_, _, ranFirst, .inl ⟨stops, rfl, rfl⟩⟩
    · exact Run.unlessSignal_eq_some_iff.mpr ⟨_, _, ranFirst, .inr ⟨goesOn, ih ranLater goesOn⟩⟩

/-- A plain value has no procedure to leave. -/
theorem Value.unwrapped_of_plain {value : Value} (plain : value.isSignal = false) :
    value.unwrapped = value := by
  cases value with
  | error | returned | returnedNothing => cases plain
  | _ => rfl

namespace Limits

/-- The machine of a run under limits, without functions of the host. -/
def machine (limits : Limits) : Machine Budget := ⟨limits.meter, .empty⟩

/-- What the statements of a program end in under limits, before a value that is on its way out of
a procedure has left the program. -/
def ending (limits : Limits) (fallback : Nat) (stmts : List Stmt) (forest : Forest) :
    Option (Value × World Budget) :=
  Stmt.evalAll limits.machine (limits.machine.invoke (limits.nesting fallback)) Session.globalScope
    .null stmts ⟨forest, limits.budget⟩

/-- The limits do not look at tokens or lines. -/
def outlineSimulation (limits : Limits) : Simulation limits.machine limits.machine where
  change := .outline
  view := id
  word_line := Recast.line_outline_word
  other_line := Recast.line_outline_other
  visit _ _ _ := (Option.map_id_apply ..).symm
  enter _ _ := (Option.map_id_apply ..).symm
  leave _ := rfl
  find _ := rfl
  answer _ _ _ := rfl

/-- An ending with the tokens of the outline. -/
def outlineEnding (found : Value × World Budget) : Value × World Budget :=
  (found.1.recast .outline, ⟨found.2.forest.recast .outline, found.2.tally⟩)

section

variable {limits : Limits} {fallback : Nat} {stmts : List Stmt} {forest : Forest} {value : Value}
  {world : World Budget}

/-- The outlines of statements end as the statements do. -/
theorem ending_outline (limits : Limits) (fallback : Nat) (stmts : List Stmt) (forest : Forest) :
    limits.ending fallback (Stmt.recastAll .outline stmts) (forest.recast .outline) =
      (limits.ending fallback stmts forest).map outlineEnding :=
  Simulation.stmts (limits.outlineSimulation.invoke _) _ .null stmts ⟨forest, limits.budget⟩

/-- Without a bound on visits statements end with the budget they started with. -/
theorem ending_budget (unlimited : limits.gas = 0)
    (ended : limits.ending fallback stmts forest = some (value, world)) :
    world.tally = limits.budget := by
  have moves : limits.machine.meter.Moves fun before after => after = before :=
    moves_budget unlimited
  exact (moves.parallel (moves.invoke (limits.nesting fallback)) Session.globalScope).stmts .null
    stmts _ value world ended

/-- Statements keep the scopes clean, and end in a settled value. -/
theorem ending_clean (clean : forest.Clean)
    (ended : limits.ending fallback stmts forest = some (value, world)) :
    world.forest.Clean ∧ value.Settled := by
  have maintains : limits.machine.host.Maintains Forest.Clean Value.Settled :=
    Host.empty_confines.clean
  exact Stmt.evalAll_maintains maintains clean ended

/-- Without a bound on visits a program is evaluated as its statements are, and a value leaves
it. -/
theorem evaluate_eq_ending (unlimited : limits.gas = 0) (program : Program) :
    limits.evaluate .empty fallback (.program program) Session.globalScope forest =
      (limits.ending fallback program.stmts forest).map fun found =>
        (found.1.unwrapped, found.2.forest) := by
  have passes : limits.meter.visit program.line forest limits.budget = some limits.budget :=
    visit_eq_some_iff.mpr (.inl ⟨unlimited, rfl⟩)
  simp only [evaluate, Node.eval, Program.eval, Machine.visit, passes, Run.unwrapped, ending,
    machine]
  cases Stmt.evalAll ⟨limits.meter, .empty⟩
      (Machine.invoke ⟨limits.meter, .empty⟩ (limits.nesting fallback)) Session.globalScope .null
      program.stmts ⟨forest, limits.budget⟩ with
  | none => rfl
  | some found => rfl

/-- Behind statements that end in a plain value others are evaluated as if they stood alone. -/
theorem ending_append_of_plain (unlimited : limits.gas = 0)
    (ended : limits.ending fallback stmts forest = some (value, world))
    (plain : value.isSignal = false) {rest : List Stmt} (some : rest ≠ []) :
    limits.ending fallback (stmts ++ rest) forest = limits.ending fallback rest world.forest := by
  obtain ⟨stmt, rest, rfl⟩ := List.exists_cons_of_ne_nil some
  have behind := Stmt.evalAll_append_of_plain ended plain (stmt :: rest)
  have start : world = ⟨world.forest, limits.budget⟩ := by
    rw [← ending_budget unlimited ended]
  rw [start] at behind
  exact behind

/-- Statements that end in a signal end so before others. -/
theorem ending_append_of_signal
    (ended : limits.ending fallback stmts forest = some (value, world))
    (signal : value.isSignal = true) (rest : List Stmt) :
    limits.ending fallback (stmts ++ rest) forest = some (value, world) :=
  Stmt.evalAll_append_of_signal ended rfl signal rest

end

end Limits

/-! ## Lines of a session -/

/-- A line that a session runs and a batch run can hold: it is not blank, does not end the session
and is self-contained. -/
structure Settings.Admits (settings : Settings) (line : Text) : Prop where
  /-- There is more than white space. -/
  solid : line.trimmed ≠ []
  /-- It is not the command that ends the session. -/
  stays : line.trimmed ≠ settings.exitCommand
  /-- It does not join what stands around it. -/
  contained : line.SelfContained

instance (settings : Settings) (line : Text) : Decidable (settings.Admits line) :=
  decidable_of_iff (line.trimmed ≠ [] ∧ line.trimmed ≠ settings.exitCommand ∧ line.SelfContained)
    ⟨fun ⟨solid, stays, contained⟩ => ⟨solid, stays, contained⟩,
      fun admitted => ⟨admitted.solid, admitted.stays, admitted.contained⟩⟩

namespace Session

/-- What a line ends in before a value that is on its way out of a procedure has left it: an error,
such a value, or a plain value. -/
def ending (session : Session) (fallback : Nat) (line : Text) : Option Value :=
  (session.settings.limits.ending fallback (Program.ofText line).program.stmts
    session.forest).map Prod.fst

/-- A session takes lines in turn, and each ends in a plain value. -/
inductive Passes (fallback : Nat) : Session → List Text → Session → Prop where
  /-- No line. -/
  | nil (session : Session) : Passes fallback session [] session
  /-- A line before others. -/
  | cons {session after last : Session} {line : Text} {rest : List Text} {reply : Reply}
    {value : Value} (handled : session.handle fallback line = some (reply, after))
    (ended : session.ending fallback line = some value) (plain : value.isSignal = false)
    (later : Passes fallback after rest last) : Passes fallback session (line :: rest) last

section

variable {session later : Session} {fallback : Nat} {line : Text} {reply : Reply}

/-- What a session does with a line that it runs. -/
theorem handle_eq (unlimited : session.settings.limits.gas = 0)
    (admitted : session.settings.Admits line)
    (handled : session.handle fallback line = some (reply, later)) :
    ∃ value world, session.settings.limits.ending fallback (Program.ofText line).program.stmts
        session.forest = some (value, world) ∧
      session.ending fallback line = some value ∧
      reply.output = shown session.settings value.unwrapped ∧
      later.forest = world.forest ∧ later.settings = session.settings := by
  have isProgram := Input.ofLine_of_selfContained admitted.contained admitted.solid admitted.stays
  simp only [handle, isProgram, runProgram, admitted.contained.clean] at handled
  rw [Limits.evaluate_eq_ending unlimited] at handled
  cases ended : session.settings.limits.ending fallback (Program.ofText line).program.stmts
      session.forest with
  | none =>
    rw [ended] at handled
    cases handled
  | some found =>
    rw [ended] at handled
    cases handled
    exact ⟨found.1, found.2, rfl, by rw [ending, ended]; rfl, rfl, rfl, rfl⟩

/-- The statements of a self-contained line are at least one. -/
theorem outlines_ne_nil (contained : line.SelfContained) (rest : List Text) :
    Text.outlines (line :: rest) ≠ [] := by
  obtain ⟨tokens, semicolon, -, -, -, spelled⟩ := contained.spelled
  cases same : (Program.ofText line).program.stmts with
  | nil =>
    rw [same] at spelled
    generalize whole : tokens ++ [semicolon] = all at spelled
    cases spelled
    simp at whole
  | cons stmt others => simp [Text.outlines, same]

/-- After lines that a session passes, statements end in it as they do behind the lines. -/
theorem Passes.ending_behind {lines : List Text} (passes : session.Passes fallback lines later)
    (unlimited : session.settings.limits.gas = 0)
    (admitted : ∀ line ∈ lines, session.settings.Admits line) (clean : session.forest.Clean) :
    later.settings = session.settings ∧ later.forest.Clean ∧ ∀ rest : List Stmt, rest ≠ [] →
      session.settings.limits.ending fallback (Text.outlines lines ++ rest)
          (session.forest.recast .outline) =
        session.settings.limits.ending fallback rest (later.forest.recast .outline) := by
  induction passes with
  | nil session => exact ⟨rfl, clean, fun _ _ => rfl⟩
  | cons handled ended plain passes ih =>
    rename_i session after last line lines reply value
    obtain ⟨found, world, ran, same, -, forest, settings⟩ :=
      handle_eq unlimited (admitted line List.mem_cons_self) handled
    obtain rfl : found = value := Option.some.inj (same.symm.trans ended)
    have others : ∀ line ∈ lines, after.settings.Admits line := by
      rw [settings]
      exact fun line member => admitted line (List.mem_cons_of_mem _ member)
    obtain ⟨kept, cleanLast, behind⟩ := ih (settings ▸ unlimited) others
      (forest ▸ (Limits.ending_clean clean ran).1)
    rw [settings] at kept behind
    refine ⟨kept, cleanLast, fun rest some => ?_⟩
    have outlined := session.settings.limits.ending_outline fallback
      (Program.ofText line).program.stmts session.forest
    rw [ran] at outlined
    have parted : Text.outlines (line :: lines) ++ rest =
        Stmt.recastAll .outline (Program.ofText line).program.stmts ++
          (Text.outlines lines ++ rest) := by
      simp [Text.outlines]
    rw [parted, Limits.ending_append_of_plain unlimited outlined (by simpa using plain)
      (by simp [some]), ← behind rest some, forest]

/-- Up to the first signal, the batch run of lines ends in what the last line taken does. -/
theorem batch_ending {settings : Settings} {before after : List Text} {value : Value}
    (unlimited : settings.limits.gas = 0)
    (admitted : ∀ other ∈ before ++ line :: after, settings.Admits other)
    (passes : (Session.start settings).Passes fallback before session)
    (handled : session.handle fallback line = some (reply, later))
    (ended : session.ending fallback line = some value)
    (stops : after = [] ∨ value.isSignal = true) :
    ∃ (result : Value) (forest : Forest), settings.limits.evaluate .empty fallback
        (.program (Program.ofText (Text.joined (utf8 "\n") (before ++ line :: after))).program)
        globalScope .single = some (result.unwrapped, forest) ∧
      result.recast .outline = value.recast .outline ∧
      forest.shown globalScope = later.forest.shown globalScope ∧
      reply.output = shown settings value.unwrapped := by
  obtain ⟨kept, clean, behind⟩ := passes.ending_behind unlimited
    (fun other member => admitted other (List.mem_append_left _ member)) Forest.Clean.single
  have kept : session.settings = settings := kept
  have own := admitted line (List.mem_append_right _ List.mem_cons_self)
  obtain ⟨found, world, ran, same, written, forest, -⟩ :=
    handle_eq (kept ▸ unlimited) (kept ▸ own) handled
  obtain rfl : found = value := Option.some.inj (same.symm.trans ended)
  rw [kept] at ran written
  -- All three runs are seen in the outlines: the session's, the batch's, and that of the line.
  have line_outlined := settings.limits.ending_outline fallback
    (Program.ofText line).program.stmts session.forest
  rw [ran] at line_outlined
  let batch := (Program.ofText (Text.joined (utf8 "\n") (before ++ line :: after))).program
  have batch_outlined := settings.limits.ending_outline fallback batch.stmts .single
  have whole : Stmt.recastAll .outline batch.stmts =
      Text.outlines before ++ (Stmt.recastAll .outline (Program.ofText line).program.stmts ++
        Text.outlines after) := by
    have joined := (Text.ofText_joined fun other member => (admitted other member).contained).2
    exact joined.trans (by simp [Text.outlines])
  have agrees : settings.limits.ending fallback (Stmt.recastAll .outline batch.stmts)
      (Forest.single.recast .outline) = some (Limits.outlineEnding (found, world)) := by
    have some : Stmt.recastAll .outline (Program.ofText line).program.stmts ++
        Text.outlines after ≠ [] := by
      have some := outlines_ne_nil own.contained after
      simpa [Text.outlines] using some
    rw [whole]
    refine (behind _ some).trans ?_
    rcases stops with rfl | signal
    · rw [Text.outlines, List.flatMap_nil, List.append_nil]
      exact line_outlined
    · exact Limits.ending_append_of_signal line_outlined (by simpa using signal) _
  rw [agrees] at batch_outlined
  obtain ⟨⟨result, last⟩, ran', outlined⟩ := Option.map_eq_some_iff.mp batch_outlined.symm
  obtain ⟨sameValue, sameWorld⟩ := Prod.mk.inj outlined
  have sameForest : last.forest.recast .outline = world.forest.recast .outline :=
    congrArg World.forest sameWorld
  have cleanBatch := (Limits.ending_clean Forest.Clean.single ran').1
  have cleanLine := (Limits.ending_clean clean ran).1
  refine ⟨result, last.forest, ?_, sameValue, ?_, written⟩
  · rw [Limits.evaluate_eq_ending unlimited, ran']
    rfl
  · rw [forest, ← cleanBatch.shown_outline, sameForest, cleanLine.shown_outline]

end

/-- A session agrees with a batch run. Lines that are not blank, do not end the session and are
self-contained are read without a fault as one text. If all of them end in plain values, the batch
run ends in a value with the text that the session writes for the last one, and both leave the same
bindings; if one is the first to end otherwise, and that is in an error, the batch run ends in that
error, on perhaps another line, and leaves the bindings that the session has after the line. -/
theorem batch_agrees (settings : Settings) (fallback : Nat) (lines : List Text)
    (unlimited : settings.limits.gas = 0) (admitted : ∀ line ∈ lines, settings.Admits line) :
    let batch := Program.ofText (Text.joined (utf8 "\n") lines)
    let outcome := settings.limits.evaluate .empty fallback (.program batch.program) globalScope
      .single
    batch.errors = [] ∧
      ∀ before line after session reply later value, lines = before ++ line :: after →
        (Session.start settings).Passes fallback before session →
        session.handle fallback line = some (reply, later) →
        session.ending fallback line = some value →
        (after = [] → value.isSignal = false → ∃ result forest,
          outcome = some (result, forest) ∧ reply.output = valueLine settings result.inspect ∧
          forest.shown globalScope = later.forest.shown globalScope) ∧
        (∀ fault place, value = .error fault place → ∃ other forest,
          outcome = some (.error fault other, forest) ∧
          reply.output = errorLine settings (fault.message place) ∧
          Text.EqualUpTo place other (fault.message place) (fault.message other) ∧
          forest.shown globalScope = later.forest.shown globalScope) := by
  intro batch outcome
  refine ⟨(Text.ofText_joined fun line member => (admitted line member).contained).1, ?_⟩
  rintro before line after session reply later value rfl passes handled ended
  constructor
  · intro last plain
    obtain ⟨result, forest, ran, outlined, bindings, written⟩ :=
      batch_ending unlimited admitted passes handled ended (.inl last)
    have plainResult : result.isSignal = false := by
      rw [← result.isSignal_recast, outlined, value.isSignal_recast, plain]
    refine ⟨result.unwrapped, forest, ran, ?_, bindings⟩
    have text : result.inspect = value.inspect := by
      rw [← Value.inspect_recast plainResult, outlined, Value.inspect_recast plain]
    rw [written, shown, Value.unwrapped_of_plain plain, Value.unwrapped_of_plain plainResult,
      Value.isError_of_plain plain, text]
    rfl
  · rintro fault place rfl
    obtain ⟨result, forest, ran, outlined, bindings, written⟩ :=
      batch_ending unlimited admitted passes handled ended (.inr rfl)
    obtain ⟨other, rfl⟩ : ∃ other, result = .error fault other := by
      cases result with
      | error found other => exact ⟨other, by rw [(Value.error.inj outlined).1]⟩
      | _ => cases outlined
    exact ⟨other, forest, ran, written, fault.message_equalUpTo place other, bindings⟩

/-- A procedure from one line is called on the next, and the session writes what the batch run ends
in. -/
theorem batch_agrees_halving :
    let settings := { Settings.default with color := false }
    let define := utf8 "variable mitad = procedimiento(x) \x7b\n x / 2 \x7d;"
    let use := utf8 "y = mitad(6); y;"
    (∀ line ∈ [define, use], settings.Admits line) ∧
      (Program.ofText (Text.joined (utf8 "\n") [define, use])).errors = [] ∧
      ∃ result forest, settings.limits.evaluate .empty 0
          (.program (Program.ofText (Text.joined (utf8 "\n") [define, use])).program) globalScope
          .single = some (result, forest) ∧
        result.inspect = utf8 "3" := by
  intro settings define use
  have admitted : ∀ line ∈ [define, use], settings.Admits line := by decide +kernel
  have passed : ((start settings).handle 0 define).isSome = true ∧
      ((start settings).ending 0 define).map Value.isSignal = some false := by decide +kernel
  have answered : (((start settings).handle 0 define).bind fun found =>
      (found.2.handle 0 use).map fun next => next.1.output) = some (utf8 "3\n") ∧
      (((start settings).handle 0 define).bind fun found =>
        (found.2.ending 0 use).map Value.isSignal) = some false := by decide +kernel
  obtain ⟨⟨_, session⟩, handled⟩ := Option.isSome_iff_exists.mp passed.1
  obtain ⟨_, ended, plain⟩ := Option.map_eq_some_iff.mp passed.2
  rw [handled, Option.bind_some, Option.bind_some] at answered
  obtain ⟨⟨reply, later⟩, handledUse, written⟩ := Option.map_eq_some_iff.mp answered.1
  obtain ⟨value, endedUse, plainUse⟩ := Option.map_eq_some_iff.mp answered.2
  obtain ⟨clean, agrees⟩ := batch_agrees settings 0 [define, use] rfl admitted
  obtain ⟨result, forest, ran, output, -⟩ := (agrees [define] use [] session reply later value rfl
    (.cons handled ended plain (.nil session)) handledUse endedUse).1 rfl plainUse
  refine ⟨admitted, clean, result, forest, ran, ?_⟩
  exact (List.append_inj' (output.symm.trans written) rfl).1

end Session

end Lengua
