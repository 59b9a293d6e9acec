import Lengua.Command
import Lengua.Proofs.Session.Line

/-!
# Two front ends

A program can be run from a file and from a session. Both read the same source and evaluate it
under limits from the settings, but each writes on its own: a run writes to two streams, says
nothing about a null value and tells success by its exit code, and a session writes everything to
one stream. What they write is compared with what the source comes to on its own, which is either
its syntax errors or a value. How settings are decoded and lines are edited does not matter: all
this holds for any decoder and any line editor.
-/

namespace Lengua

/-- What a source comes to on its own: its syntax errors, or else its value. There is nothing only
when it has no syntax errors and its evaluation has no outcome. -/
def Settings.result (settings : Settings) (fallback : Nat) (source : Text) :
    Option (Except (List SyntaxError) Value) :=
  let reading := Program.ofText source
  match reading.errors with
  | [] => (settings.limits.evaluate Host.empty fallback (.program reading.program)
      Session.globalScope Forest.single).map fun found => .ok found.1
  | errors => some (.error errors)

/-- What a session without colours writes about what a source came to. -/
def Session.wording : Except (List SyntaxError) Value → Text
  | .ok value => value.inspect ++ utf8 "\n"
  | .error errors => Command.errorLines errors

/-- A new session without colours writes the wording of what a program comes to, if that is
anything. -/
theorem Session.handle_single {settings : Settings} (plain : settings.color = false)
    (fallback : Nat) {source : Text}
    (isProgram : Input.ofLine settings source = .program (Program.ofText source)) :
    ((Session.start settings).handle fallback source).map Prod.fst =
      (settings.result fallback source).map fun result => ⟨wording result, true⟩ := by
  have uncoloured (code : Nat) (text : Text) : painted settings code text = text := by
    rw [painted, plain, if_neg Bool.false_ne_true]
  have runs : Input.ofLine (start settings).settings source = .program (Program.ofText source) :=
    isProgram
  simp only [handle, runs, runProgram, Settings.result]
  cases (Program.ofText source).errors with
  | cons error others => simp [start, errorLine, uncoloured, wording, Command.errorLines]
  | nil =>
    dsimp only [start]
    cases settings.limits.evaluate .empty fallback (.program (Program.ofText source).program)
        globalScope .single with
    | none => rfl
    | some found => simp [shown, errorLine, valueLine, uncoloured, wording]

namespace Command

/-- What a run tells about what a source came to. -/
structure Tells (result : Except (List SyntaxError) Value) (outcome : Outcome) : Prop where
  /-- Nothing is written about a null value. -/
  null : result = .ok .null → outcome.output = [] ∧ outcome.errors = []
  /-- For anything else, the streams together hold its wording. -/
  written : result ≠ .ok .null → outcome.output ++ outcome.errors = Session.wording result
  /-- At most one of the streams is written to. -/
  oneStream : outcome.output = [] ∨ outcome.errors = []
  /-- The run succeeds if nothing is written to the standard error. -/
  code : outcome.code = 0 ↔ outcome.errors = []
  /-- Nothing is written to the standard error about a value that is no error. -/
  errors : outcome.errors = [] ↔ ∃ value, result = .ok value ∧ value.isError = false

/-- A failure tells of what is not a value, or is an error, by its wording. -/
theorem Tells.failure {result : Except (List SyntaxError) Value}
    (fails : ∀ value, result = .ok value → value.isError = true)
    (solid : Session.wording result ≠ []) : Tells result (.failure 1 (Session.wording result)) := by
  have notNull : result ≠ .ok .null := by
    intro null
    exact absurd (fails .null null) (by decide)
  refine ⟨fun null => absurd null notNull, fun _ => rfl, .inl rfl, ?_, ?_⟩
  · exact ⟨fun zero => absurd zero Nat.one_ne_zero, fun none => absurd none solid⟩
  · constructor
    · intro none
      exact absurd none solid
    · rintro ⟨value, same, fine⟩
      rw [fails value same] at fine
      cases fine

/-- A success tells of a value that is no error, by its wording unless it is null. -/
theorem Tells.success {value : Value} (fine : value.isError = false) {output : Text}
    (null : value = .null → output = [])
    (written : value ≠ .null → output = Session.wording (.ok value)) :
    Tells (.ok value) (.success output) where
  null same := ⟨null (Except.ok.inj same), rfl⟩
  written other := by
    rw [← written fun same => other (congrArg Except.ok same)]
    exact List.append_nil output
  oneStream := .inr rfl
  code := ⟨fun _ => rfl, fun _ => rfl⟩
  errors := ⟨fun _ => ⟨value, rfl, fine⟩, fun _ => rfl⟩

/-- A run under the limits of some settings tells what the source comes to, if that is anything. -/
theorem runSource_tells (settings : Settings) (fallback : Nat) (source : Text) :
    Option.Rel Tells (settings.result fallback source)
      (runSource settings.limits fallback source) := by
  have feed : utf8 "\n" ≠ [] := by decide
  unfold Settings.result runSource
  dsimp only
  cases (Program.ofText source).errors with
  | cons error others =>
    refine .some (Tells.failure (by simp) ?_)
    simp [Session.wording, errorLines, feed]
  | nil =>
    dsimp only
    cases settings.limits.evaluate .empty fallback (.program (Program.ofText source).program)
        Session.globalScope .single with
    | none => exact .none
    | some found =>
      obtain ⟨value, forest⟩ := found
      cases value with
      | error fault line =>
        refine .some (Tells.failure ?_ (List.append_ne_nil_of_right_ne_nil _ feed))
        rintro _ ⟨⟩
        rfl
      | null => exact .some (.success rfl (fun _ => rfl) fun other => absurd rfl other)
      | _ => exact .some (.success rfl (fun null => nomatch null) fun _ => rfl)

/-- A command line whose settings are known is carried out under them. -/
theorem execute_of_load {arguments : List Text} {invocation : Invocation}
    {surroundings : Surroundings} {settings : Settings}
    (given : Invocation.ofArguments arguments = .ok invocation)
    (loaded : invocation.load surroundings = .ok settings) (fallback : Nat) :
    execute arguments fallback surroundings =
      (action settings invocation.words).perform settings fallback surroundings := by
  simp only [execute, given, loaded]

/-- A run of a file without flags and a new session without colours agree on every source that the
session takes for a program. One has an outcome exactly if the other has. Then the streams of the
run together hold what the session writes, except for a null value, of which only the session
tells; the run writes to one stream at most, and it succeeds exactly if the standard error stays
empty, which is so exactly if there are no syntax errors and the value is no error. -/
theorem run_agrees (settings : Settings) (plain : settings.color = false) (path source : Text)
    (solid : source.trimmed ≠ []) (noQuestion : source.trimmed.head? ≠ some 0x3A)
    (stays : source.trimmed ≠ settings.exitCommand) (fallback : Nat) (surroundings : Surroundings)
    (found : surroundings.read path = .ok source) :
    let ran := (action settings [utf8 "run", path]).perform settings fallback surroundings
    let handled := (Session.start settings).handle fallback source
    (∀ arguments invocation, Invocation.ofArguments arguments = .ok invocation →
      invocation.words = [utf8 "run", path] → invocation.load surroundings = .ok settings →
      execute arguments fallback surroundings = ran) ∧
    (settings.result fallback source = none → ran = none ∧ handled = none) ∧
    ∀ result, settings.result fallback source = some result →
      ∃ outcome reply next, ran = some outcome ∧ handled = some (reply, next) ∧
        (result = .ok .null →
          outcome.output = [] ∧ outcome.errors = [] ∧ reply.output = utf8 "nulo\n") ∧
        (result ≠ .ok .null → outcome.output ++ outcome.errors = reply.output) ∧
        (outcome.output = [] ∨ outcome.errors = []) ∧
        (outcome.code = 0 ↔ outcome.errors = []) ∧
        (outcome.errors = [] ↔ ∃ value, result = .ok value ∧ value.isError = false) := by
  intro ran handled
  have runs : ran = runSource settings.limits fallback source := by
    have asked : action settings [utf8 "run", path] = .run path settings.limits := rfl
    simp only [ran, asked, Action.perform, found, onSource]
  have isProgram := Input.ofLine_eq_program_iff.mpr ⟨solid, stays, noQuestion, rfl⟩
  have said : handled.map Prod.fst = _ := Session.handle_single plain fallback isProgram
  have told := runSource_tells settings fallback source
  rw [← runs] at told
  refine ⟨?_, ?_, ?_⟩
  · intro arguments invocation given words loaded
    rw [execute_of_load given loaded, words]
  · intro nothing
    rw [nothing] at told said
    cases ended : ran with
    | some outcome =>
      rw [ended] at told
      cases told
    | none => exact ⟨rfl, Option.map_eq_none_iff.mp said⟩
  · intro result comes
    rw [comes] at told said
    obtain ⟨⟨reply, next⟩, replied, same⟩ := Option.map_eq_some_iff.mp said
    have output : reply.output = Session.wording result := congrArg Reply.output same
    cases ended : ran with
    | none =>
      rw [ended] at told
      cases told
    | some outcome =>
      rw [ended] at told
      cases told with
      | some tells =>
        refine ⟨outcome, reply, next, rfl, replied, ?_, ?_, tells.oneStream, tells.code,
          tells.errors⟩
        · rintro rfl
          obtain ⟨silent, noErrors⟩ := tells.null rfl
          exact ⟨silent, noErrors, output⟩
        · intro other
          rw [output, tells.written other]

/-- A decoder that reads one document and refuses all others. -/
def decoderOf (known : Text) (change : Settings → Settings) : Settings.Decoder
  | .ok document, settings =>
    if document = known then (change settings, none) else (settings, some (.refused []))
  | .error report, settings => (settings, some (.refused report))

/-- A line editor that has no lines and remembers none. -/
def closedEditor : Editor where
  Memory := Unit
  blank := ()
  restore _ _ := ()
  remember _ _ := ()
  store _ := []
  answers prompt := [(prompt, .ended)]

/-- A settings file and one source, which is found at every other path. -/
def configured (document : Text) (change : Settings → Settings) (source : Text) : Surroundings where
  read path := if path = utf8 "c.yaml" then .ok document else .ok source
  home := []
  decode := decoderOf document change
  editor := closedEditor

/-- A sum, run from a file under settings from another file that turn colours off, and typed into a
session. -/
theorem run_agrees_sum :
    let settings := { Settings.default with color := false }
    let source := utf8 "variable x = 2; x + 3"
    let surroundings := configured (utf8 "color: false\n")
      (fun settings => { settings with color := false }) source
    ∃ outcome reply next,
      execute [utf8 "-config", utf8 "c.yaml", utf8 "run", utf8 "p.lpp"] 0 surroundings =
        some outcome ∧
      (Session.start settings).handle 0 source = some (reply, next) ∧
      reply.output = utf8 "5\n" ∧ outcome.output ++ outcome.errors = utf8 "5\n" ∧
      outcome.code = 0 := by
  intro settings source surroundings
  have wording : (settings.result 0 source).map
      (fun result => (Session.wording result, result.toOption.map Value.isError)) =
        some (utf8 "5\n", some false) := by decide +kernel
  obtain ⟨result, comes, same⟩ := Option.map_eq_some_iff.mp wording
  obtain ⟨five, fine⟩ := Prod.mk.inj same
  obtain ⟨executed, -, agrees⟩ := run_agrees settings rfl (utf8 "p.lpp") source (by decide +kernel)
    (by decide +kernel) (by decide +kernel) 0 surroundings rfl
  obtain ⟨outcome, reply, next, ran, handled, -, written, -, code, errors⟩ := agrees _ comes
  have output : reply.output = utf8 "5\n" := by
    have replied : ((Session.start settings).handle 0 source).map (fun found => found.1.output) =
        some (utf8 "5\n") := by decide +kernel
    rw [handled] at replied
    exact Option.some.inj replied
  refine ⟨outcome, reply, next, ?_, handled, output, ?_, ?_⟩
  · rw [executed _ ⟨utf8 "c.yaml", [utf8 "run", utf8 "p.lpp"]⟩ rfl rfl rfl, ran]
  · rw [written, output]
    rintro rfl
    exact absurd five (by decide)
  · cases result with
    | error found => cases fine
    | ok value => exact code.mpr (errors.mpr ⟨value, rfl, Option.some.inj fine⟩)

end Command

end Lengua
