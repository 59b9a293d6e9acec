import Lengua.Proofs.Session.Line

/-!
# Lines that are not run

A session runs a line only if it is a program without syntax errors. Any other line leaves the
scopes as they are; at most it is remembered as the last program read, and only the question for
that program shows this. So such lines can be taken away from a session, and nothing else that the
session says or does is different.

The exit command is such a line, unless there is white space at one of its ends: a line is trimmed
before it is compared with the command, so the command itself is then taken for a program. It can
be taken away without a trace exactly if running it never changes the scopes.

The argument compares two sessions that differ in the program they remember. A line that is
passed over leads to such a session (`handle_passedOver`), and every line leads from two of them to
two of them (`handle_alike`).
-/

/-- Going on from related outcomes leads to related outcomes if it does so from each two of them. -/
theorem Option.Rel.bind {α β γ δ : Type} {related : α → β → Prop} {after : γ → δ → Prop}
    {a : Option α} {b : Option β} {f : α → Option γ} {g : β → Option δ}
    (first : Option.Rel related a b)
    (next : ∀ x ∈ a, ∀ y, related x y → Option.Rel after (f x) (g y)) :
    Option.Rel after (a.bind f) (b.bind g) := by
  cases first with
  | none => exact .none
  | some same => exact next _ rfl _ same

namespace Lengua

/-- A line that a session passes over without running it: it is blank, it ends the session, it is a
question, or it has syntax errors. White space around a line does not count for the first three. -/
def Settings.PassesOver (settings : Settings) (line : Text) : Prop :=
  line.trimmed = [] ∨ line.trimmed = settings.exitCommand ∨ line.trimmed.head? = some 0x3A ∨
    (Program.ofText line).errors ≠ []

instance (settings : Settings) (line : Text) : Decidable (settings.PassesOver line) :=
  inferInstanceAs (Decidable (_ ∨ _ ∨ _ ∨ ¬ _ = []))

/-- A line that is no program to be run: it is blank, it equals the exit command, it is a question,
or it has syntax errors. White space around a line does not count for a blank one and a question,
but it does for the exit command. -/
def Settings.Idles (settings : Settings) (line : Text) : Prop :=
  line.trimmed = [] ∨ line = settings.exitCommand ∨ line.trimmed.head? = some 0x3A ∨
    (Program.ofText line).errors ≠ []

instance (settings : Settings) (line : Text) : Decidable (settings.Idles line) :=
  inferInstanceAs (Decidable (_ ∨ _ ∨ _ ∨ ¬ _ = []))

/-- A line that is no program to be run is passed over, if it is not the exit command. -/
theorem Settings.Idles.passesOver {settings : Settings} {line : Text}
    (idles : settings.Idles line) : settings.PassesOver line ∨ line = settings.exitCommand := by
  rcases idles with blank | exit | question | broken
  · exact .inl (.inl blank)
  · exact .inr exit
  · exact .inl (.inr (.inr (.inl question)))
  · exact .inl (.inr (.inr (.inr broken)))

/-- A question is a line without the white space around it. -/
theorem Input.code_eq_trimmed {settings : Settings} {line code : Text}
    (input : Input.ofLine settings line = .question code) : code = line.trimmed := by
  unfold Input.ofLine at input
  dsimp only at input
  split at input
  · cases input
  split at input
  · cases input
  split at input
  · cases input
    rfl
  · cases input

namespace Session

/-- Takes lines in order, also after one that ends the session, and gives the reply to each. -/
def handleAll (session : Session) (fallback : Nat) : List Text → Option (List Reply × Session)
  | [] => some ([], session)
  | line :: rest => do
    let (reply, next) ← session.handle fallback line
    let (replies, last) ← next.handleAll fallback rest
    some (reply :: replies, last)

/-- Taking a line before others. -/
theorem handleAll_cons (session : Session) (fallback : Nat) (line : Text) (rest : List Text) :
    session.handleAll fallback (line :: rest) =
      (session.handle fallback line).bind fun found =>
        (found.2.handleAll fallback rest).bind fun later => some (found.1 :: later.1, later.2) :=
  rfl

/-- Taking one more line at the end. -/
theorem handleAll_concat {session last : Session} {fallback : Nat} {lines : List Text}
    {replies : List Reply} (reached : session.handleAll fallback lines = some (replies, last))
    (line : Text) :
    session.handleAll fallback (lines ++ [line]) =
      (last.handle fallback line).map fun found => (replies ++ [found.1], found.2) := by
  induction lines generalizing session replies with
  | nil =>
    cases reached
    rw [List.nil_append, handleAll_cons]
    cases handle _ fallback line <;> rfl
  | cons head rest ih =>
    rw [handleAll_cons] at reached
    obtain ⟨⟨reply, next⟩, handled, later⟩ := Option.bind_eq_some_iff.mp reached
    obtain ⟨⟨others, final⟩, remaining, same⟩ := Option.bind_eq_some_iff.mp later
    cases same
    rw [List.cons_append, handleAll_cons, handled, Option.bind_some, ih remaining]
    cases handle _ fallback line <;> rfl

section

variable {session next : Session} {fallback : Nat}

/-- A session keeps its settings, and it goes on after any line that does not end it. -/
theorem handle_keeps {line : Text} {reply : Reply}
    (handled : session.handle fallback line = some (reply, next)) :
    next.settings = session.settings ∧
      (Input.ofLine session.settings line ≠ .exit → reply.goesOn = true) := by
  unfold handle at handled
  split at handled
  · cases handled
    exact ⟨rfl, fun _ => rfl⟩
  · next exit =>
    cases handled
    exact ⟨rfl, fun stays => absurd exit stays⟩
  · cases handled
    exact ⟨rfl, fun _ => rfl⟩
  · next reading _ =>
    obtain ⟨⟨output, after⟩, ran, written⟩ := Option.bind_eq_some_iff.mp handled
    cases written
    refine ⟨?_, fun _ => rfl⟩
    unfold runProgram at ran
    dsimp only at ran
    split at ran
    · obtain ⟨⟨value, forest⟩, -, same⟩ := Option.bind_eq_some_iff.mp ran
      cases same
      rfl
    · cases ran
      rfl

/-- A session has the settings it was started with after any lines. -/
theorem handleAll_settings {lines : List Text} {replies : List Reply}
    (handled : session.handleAll fallback lines = some (replies, next)) :
    next.settings = session.settings := by
  induction lines generalizing session replies with
  | nil =>
    cases handled
    rfl
  | cons line rest ih =>
    rw [handleAll_cons] at handled
    obtain ⟨⟨reply, between⟩, first, later⟩ := Option.bind_eq_some_iff.mp handled
    obtain ⟨⟨others, last⟩, remaining, same⟩ := Option.bind_eq_some_iff.mp later
    cases same
    exact (ih remaining).trans (handle_keeps first).1

end

/-! ## Sessions that remember different programs -/

/-- Sessions under the same settings that differ at most in the last program read. -/
structure Alike (settings : Settings) (first second : Session) : Prop where
  /-- The settings of one of them. -/
  own : first.settings = settings
  /-- The settings of the other. -/
  other : second.settings = settings
  /-- They have the same scopes. -/
  forest : second.forest = first.forest

/-- A session takes a line and has the same scopes as before. -/
def KeepsScopes (session : Session) (fallback : Nat) (line : Text) : Prop :=
  ∃ reply next, session.handle fallback line = some (reply, next) ∧ next.forest = session.forest

/-- A line that is passed over changes no scope. -/
theorem handle_passedOver (session : Session) (fallback : Nat) {line : Text}
    (passed : session.settings.PassesOver line) : session.KeepsScopes fallback line := by
  unfold KeepsScopes handle
  cases input : Input.ofLine session.settings line with
  | blank | exit | question code => exact ⟨_, session, rfl, rfl⟩
  | program reading =>
    obtain ⟨solid, stays, noQuestion, rfl⟩ := Input.ofLine_eq_program_iff.mp input
    have broken : (Program.ofText line).errors ≠ [] := by
      rcases passed with blank | exit | question | broken
      · exact absurd blank solid
      · exact absurd exit stays
      · exact absurd question noQuestion
      · exact broken
    obtain ⟨error, others, found⟩ := List.exists_cons_of_ne_nil broken
    simp only [runProgram, found]
    exact ⟨_, _, rfl, rfl⟩

section

variable {settings : Settings} {first second : Session}

/-- What a session answers to a question depends on the last program read only if it asks for
that. -/
theorem answer_alike (alike : Alike settings first second) {code : Text}
    (other : code ≠ utf8 ":ast") : second.answer code = first.answer code := by
  simp only [answer, if_neg other, alike.forest, alike.own, alike.other]

/-- Alike sessions run a program alike, and stay alike. -/
theorem runProgram_alike (alike : Alike settings first second) (fallback : Nat)
    (reading : Reading) :
    Option.Rel (fun found other => other.1 = found.1 ∧ Alike settings found.2 other.2)
      (first.runProgram fallback reading) (second.runProgram fallback reading) := by
  unfold runProgram
  rw [alike.own, alike.other, alike.forest]
  cases reading.errors with
  | cons error others => exact .some ⟨rfl, rfl, rfl, rfl⟩
  | nil =>
    dsimp only
    cases settings.limits.evaluate .empty fallback (.program reading.program) globalScope
        first.forest with
    | none => exact .none
    | some found => exact .some ⟨rfl, rfl, rfl, rfl⟩

/-- Alike sessions reply alike to a line, unless it asks for the last program read, and stay
alike. -/
theorem handle_alike (alike : Alike settings first second) (fallback : Nat) (line : Text) :
    Option.Rel (fun found other => (line.trimmed ≠ utf8 ":ast" → other.1 = found.1) ∧
        Alike settings found.2 other.2)
      (first.handle fallback line) (second.handle fallback line) := by
  unfold handle
  rw [alike.own, alike.other]
  cases input : Input.ofLine settings line with
  | blank | exit => exact .some ⟨fun _ => rfl, alike⟩
  | question code =>
    have asked : code = line.trimmed := Input.code_eq_trimmed input
    refine .some ⟨fun other => ?_, alike⟩
    rw [← asked] at other
    rw [answer_alike alike other]
  | program reading =>
    refine (runProgram_alike alike fallback reading).bind fun found _ other same => ?_
    exact .some ⟨fun _ => by rw [same.1], same.2⟩

end

/-! ## Sessions without some of their lines -/

/-- The lines that are not marked as taken away. -/
def remaining (marked : List (Text × Bool)) : List Text :=
  (marked.filter fun item => !item.2).map Prod.fst

/-- The replies to all lines agree with the replies to those that remain: each line that remains
has the same reply in both, unless it asks for the last program read. -/
inductive Agrees : List (Text × Bool) → List Reply → List Reply → Prop where
  /-- There are no lines. -/
  | nil : Agrees [] [] []
  /-- A line that was taken away has a reply only among those to all lines. -/
  | away {marked : List (Text × Bool)} {replies others : List Reply} (line : Text) (reply : Reply)
      (rest : Agrees marked replies others) :
      Agrees ((line, true) :: marked) (reply :: replies) others
  /-- A line that remains has a reply in both. -/
  | kept {marked : List (Text × Bool)} {replies others : List Reply} {line : Text}
      {reply other : Reply} (same : line.trimmed ≠ utf8 ":ast" → other = reply)
      (rest : Agrees marked replies others) :
      Agrees ((line, false) :: marked) (reply :: replies) (other :: others)

/-- Alike sessions end with the same scopes when one of them is not given lines that change no scope
where they stand, and reply alike to the other lines. -/
theorem handleAll_alike {settings : Settings} {first second : Session}
    (alike : Alike settings first second) {fallback : Nat} {marked : List (Text × Bool)}
    (kept : ∀ front line rest replies last, marked = front ++ (line, true) :: rest →
      first.handleAll fallback (front.map Prod.fst) = some (replies, last) →
      last.KeepsScopes fallback line) :
    Option.Rel (fun found other => other.2.forest = found.2.forest ∧
        Agrees marked found.1 other.1)
      (first.handleAll fallback (marked.map Prod.fst))
      (second.handleAll fallback (remaining marked)) := by
  induction marked generalizing first second with
  | nil => exact .some ⟨alike.forest, .nil⟩
  | cons item rest ih =>
    obtain ⟨line, away⟩ := item
    have later {reply : Reply} {next : Session}
        (handled : first.handle fallback line = some (reply, next)) :
        ∀ front other after replies last, rest = front ++ (other, true) :: after →
          next.handleAll fallback (front.map Prod.fst) = some (replies, last) →
          last.KeepsScopes fallback other := by
      intro front other after replies last split ran
      refine kept ((line, away) :: front) other after (reply :: replies) last
        (congrArg _ split) ?_
      rw [List.map_cons, handleAll_cons, handled, Option.bind_some, ran, Option.bind_some]
    rw [List.map_cons, handleAll_cons]
    cases away with
    | true =>
      obtain ⟨reply, next, handled, forest⟩ := kept [] line rest [] first rfl rfl
      have still : Alike settings next second :=
        ⟨(handle_keeps handled).1.trans alike.own, alike.other, alike.forest.trans forest.symm⟩
      have dropped : remaining ((line, true) :: rest) = remaining rest := rfl
      rw [handled, Option.bind_some, dropped,
        ← Option.bind_fun_some (second.handleAll fallback (remaining rest))]
      refine (ih still (later handled)).bind fun found _ other same => ?_
      exact .some ⟨same.1, .away line reply same.2⟩
    | false =>
      have remains : remaining ((line, false) :: rest) = line :: remaining rest := rfl
      rw [remains, handleAll_cons]
      refine (handle_alike alike fallback line).bind fun found handled other same => ?_
      refine (ih same.2 (later handled)).bind fun further _ otherFurther sameFurther => ?_
      exact .some ⟨sameFurther.1, .kept same.1 sameFurther.2⟩

/-- Lines of a kind leave no trace in a session. Without any of them the session has an outcome
exactly if it has one with them; the scopes at its end are the same, and so is the reply to every
other line, unless the line asks for the last program read. -/
def Traceless (session : Session) (fallback : Nat) (kind : Text → Prop) : Prop :=
  ∀ marked : List (Text × Bool), (∀ item ∈ marked, item.2 = true → kind item.1) →
    Option.Rel (fun found other => other.2.forest = found.2.forest ∧
        Agrees marked found.1 other.1)
      (session.handleAll fallback (marked.map Prod.fst))
      (session.handleAll fallback (remaining marked))

/-- Lines of a kind leave no trace if they change no scope wherever the session may have got. -/
theorem Traceless.of_keepsScopes {session : Session} {fallback : Nat} {kind : Text → Prop}
    (keeps : ∀ lines replies last, session.handleAll fallback lines = some (replies, last) →
      ∀ line, kind line → last.KeepsScopes fallback line) : session.Traceless fallback kind := by
  intro marked ofKind
  refine handleAll_alike ⟨rfl, rfl, rfl⟩ fun front line rest replies last split reached => ?_
  exact keeps _ replies last reached line (ofKind (line, true) (split ▸ by simp) rfl)

/-- A line after others that leaves no trace changes no scope. -/
theorem Traceless.keepsScopes {session last : Session} {fallback : Nat} {kind : Text → Prop}
    (traceless : session.Traceless fallback kind) {lines : List Text} {replies : List Reply}
    (reached : session.handleAll fallback lines = some (replies, last)) {line : Text}
    (ofKind : kind line) : last.KeepsScopes fallback line := by
  have all : (lines.map (·, false) ++ [(line, true)]).map Prod.fst = lines ++ [line] := by
    simp [Function.comp_def]
  have others : remaining (lines.map (·, false) ++ [(line, true)]) = lines := by
    simp [remaining, List.filter_map, Function.comp_def]
  have both := traceless (lines.map (·, false) ++ [(line, true)]) (by simp [ofKind])
  rw [all, others, handleAll_concat reached, reached] at both
  cases handled : last.handle fallback line with
  | none =>
    rw [handled] at both
    cases both
  | some found =>
    rw [handled] at both
    cases both with
    | some same => exact ⟨_, _, handled, same.1.symm⟩

/-- Lines that are passed over leave no trace in any session. Those that are no programs to be run
leave none exactly if the exit command changes no scope wherever the session may get; and so it is
if the exit command is passed over itself. -/
theorem handleAll_remaining (session : Session) (fallback : Nat) :
    session.Traceless fallback session.settings.PassesOver ∧
    (session.Traceless fallback session.settings.Idles ↔
      ∀ lines replies last, session.handleAll fallback lines = some (replies, last) →
        last.KeepsScopes fallback session.settings.exitCommand) ∧
    (session.settings.PassesOver session.settings.exitCommand →
      session.Traceless fallback session.settings.Idles) := by
  have passed {lines : List Text} {replies : List Reply} {last : Session}
      (reached : session.handleAll fallback lines = some (replies, last)) {line : Text}
      (passes : session.settings.PassesOver line) : last.KeepsScopes fallback line := by
    rw [← handleAll_settings reached] at passes
    exact last.handle_passedOver fallback passes
  have exits (keeps : ∀ lines replies last,
      session.handleAll fallback lines = some (replies, last) →
        last.KeepsScopes fallback session.settings.exitCommand) :
      session.Traceless fallback session.settings.Idles := by
    refine .of_keepsScopes fun lines replies last reached line idles => ?_
    rcases idles.passesOver with passes | rfl
    · exact passed reached passes
    · exact keeps lines replies last reached
  refine ⟨.of_keepsScopes fun _ _ _ reached _ => passed reached, ⟨?_, exits⟩, fun passes => ?_⟩
  · intro traceless lines replies last reached
    exact traceless.keepsScopes reached (.inr (.inl rfl))
  · exact exits fun _ _ _ reached => passed reached passes

/-- A name keeps its value when a line between its definition and its use breaks off, asks for the
names or ends the session, and when none of these lines is there. -/
theorem handleAll_remaining_between :
    let settings := { Settings.default with color := false }
    let define := utf8 "variable x = 5; x"
    let marked := [(define, false), (utf8 "x = 6; variable x 7;", true), (utf8 " :vars", true),
      (utf8 "salir()", true), (utf8 "x + 1", false)]
    settings.PassesOver settings.exitCommand ∧
      (∀ item ∈ marked, item.2 = true → settings.Idles item.1) ∧
      ∃ replies last others next,
        (start settings).handleAll 0 (marked.map Prod.fst) = some (replies, last) ∧
        (start settings).handleAll 0 [define, utf8 "x + 1"] = some (others, next) ∧
        others.map Reply.output = [utf8 "5\n", utf8 "6\n"] ∧
        next.forest = last.forest ∧ Agrees marked replies others := by
  intro settings define marked
  have passes : settings.PassesOver settings.exitCommand := by decide +kernel
  have idle : ∀ item ∈ marked, item.2 = true → settings.Idles item.1 := by decide +kernel
  have written : ((start settings).handleAll 0 (remaining marked)).map
      (fun found => found.1.map Reply.output) = some [utf8 "5\n", utf8 "6\n"] := by
    decide +kernel
  obtain ⟨⟨others, next⟩, without, outputs⟩ := Option.map_eq_some_iff.mp written
  have both := (handleAll_remaining (start settings) 0).2.2 passes marked idle
  rw [without] at both
  cases entire : (start settings).handleAll 0 (marked.map Prod.fst) with
  | none =>
    rw [entire] at both
    cases both
  | some found =>
    rw [entire] at both
    cases both with
    | some same => exact ⟨passes, idle, _, _, _, _, rfl, without, outputs, same.1, same.2⟩

/-- Settings with a space behind the exit command have no issues, and the command is run as a
program: it binds a name that another line asks for. -/
theorem handleAll_remaining_spaced :
    let settings := { Settings.default with exitCommand := utf8 "x = 5; ", color := false }
    let outputs (lines : List Text) := ((start settings).handleAll 0 lines).map
      fun found => found.1.map Reply.output
    settings.issues = [] ∧ settings.Idles settings.exitCommand ∧
      outputs [settings.exitCommand, utf8 "x"] = some [utf8 "5\n", utf8 "5\n"] ∧
      outputs [utf8 "x"] =
        some [utf8 "Identificador sin definir: \"x\" cerca de la línea 1\n"] ∧
      ¬ (start settings).Traceless 0 settings.Idles := by
  intro settings outputs
  have valid : settings.issues = [] := List.isEmpty_iff.mp (by decide +kernel)
  have idles : settings.Idles settings.exitCommand := .inr (.inl rfl)
  have given : outputs [settings.exitCommand, utf8 "x"] = some [utf8 "5\n", utf8 "5\n"] := by
    decide +kernel
  have alone : outputs [utf8 "x"] =
      some [utf8 "Identificador sin definir: \"x\" cerca de la línea 1\n"] := by
    decide +kernel
  refine ⟨valid, idles, given, alone, fun traceless => ?_⟩
  obtain ⟨⟨replies, last⟩, ran, outputsGiven⟩ := Option.map_eq_some_iff.mp given
  obtain ⟨⟨others, next⟩, ranAlone, outputsAlone⟩ := Option.map_eq_some_iff.mp alone
  have both := traceless [(settings.exitCommand, true), (utf8 "x", false)] (by simp [idles])
  have all : [(settings.exitCommand, true), (utf8 "x", false)].map Prod.fst =
      [settings.exitCommand, utf8 "x"] := rfl
  have rest : remaining [(settings.exitCommand, true), (utf8 "x", false)] = [utf8 "x"] := rfl
  rw [all, rest, ran, ranAlone] at both
  cases both with
  | some same =>
    -- The line that remains has one reply, and it would have to be the same in both sessions.
    obtain ⟨-, agrees⟩ := same
    cases agrees with
    | away _ reply agrees =>
      cases agrees with
      | kept equal rest =>
        cases rest
        rw [equal (by decide +kernel)] at outputsAlone
        simp only [List.map_cons, List.map_nil, List.cons.injEq, and_true] at *
        rw [outputsAlone] at outputsGiven
        exact absurd outputsGiven.2 (by decide)

end Session

end Lengua
