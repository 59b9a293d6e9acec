import Lengua.Proofs.Session.Idle

/-!
# Lines that end a session

A session ends when a line, without the white space around it, is the exit command of its
settings. The line is trimmed and the command is not, and a blank line is passed over before it
is compared with anything. So a command that is empty or has white space around it matches no
line, and a session under such settings goes on whatever it is given; with any other command
every session can be left, from each state and with any white space around the command.
-/

namespace Lengua

/-- The exit command can be given: it is not empty, and there is no white space around it. -/
def Settings.CanLeave (settings : Settings) : Prop :=
  settings.exitCommand ≠ [] ∧ settings.exitCommand.trimmed = settings.exitCommand

instance (settings : Settings) : Decidable settings.CanLeave :=
  inferInstanceAs (Decidable (¬ _ = [] ∧ _ = _))

/-- The lines that end a session. -/
theorem Input.ofLine_eq_exit_iff {settings : Settings} {line : Text} :
    Input.ofLine settings line = .exit ↔ line.trimmed ≠ [] ∧ line.trimmed = settings.exitCommand := by
  unfold Input.ofLine
  dsimp only
  by_cases blank : line.trimmed = []
  · simp [blank]
  by_cases exit : line.trimmed = settings.exitCommand
  · have solid : settings.exitCommand ≠ [] := exit ▸ blank
    simp [exit, solid]
  · rw [if_neg (by simpa using blank), if_neg exit]
    split <;> simp [exit]

/-- The exit command with white space around it ends a session exactly if it can be given. -/
theorem Input.ofLine_padded_iff {settings : Settings} {before after : Text}
    (blankBefore : before.trimmed = []) (blankAfter : after.trimmed = []) :
    Input.ofLine settings (before ++ settings.exitCommand ++ after) = .exit ↔
      settings.CanLeave := by
  rw [ofLine_eq_exit_iff, Text.trimmed_padded blankBefore blankAfter]
  constructor
  · rintro ⟨solid, same⟩
    exact ⟨same ▸ solid, same⟩
  · rintro ⟨solid, same⟩
    exact ⟨same.symm ▸ solid, same⟩

/-- No line ends a session unless the exit command can be given. -/
theorem Input.canLeave_of_ofLine {settings : Settings} {line : Text}
    (exit : Input.ofLine settings line = .exit) : settings.CanLeave := by
  obtain ⟨solid, same⟩ := ofLine_eq_exit_iff.mp exit
  refine ⟨same ▸ solid, ?_⟩
  rw [← same, Text.trimmed_trimmed]

namespace Session

variable {settings : Settings} {session next : Session} {fallback : Nat}

/-- A line that ends a session is not answered and changes nothing. -/
theorem handle_exit {line : Text} (exit : Input.ofLine session.settings line = .exit) :
    session.handle fallback line = some (⟨[], false⟩, session) := by
  rw [handle, exit]

/-- From whatever state a session has reached, the exit command with any white space around it
ends it without an answer and without a change exactly if the command can be given; and if it
cannot be given, no line ends the session. -/
theorem handle_exitCommand {lines : List Text} {replies : List Reply}
    (reached : (start settings).handleAll fallback lines = some (replies, session)) :
    (∀ before after : Text, before.trimmed = [] → after.trimmed = [] →
      (session.handle fallback (before ++ settings.exitCommand ++ after) =
        some (⟨[], false⟩, session) ↔ settings.CanLeave)) ∧
    ((∃ line output last, session.handle fallback line = some (⟨output, false⟩, last)) ↔
      settings.CanLeave) := by
  have kept : session.settings = settings := handleAll_settings reached
  subst kept
  have exits {line output : Text} {last : Session}
      (left : session.handle fallback line = some (⟨output, false⟩, last)) :
      Input.ofLine session.settings line = .exit := by
    by_contra stays
    cases (handle_keeps left).2 stays
  refine ⟨fun before after blankBefore blankAfter => ⟨fun left => ?_, fun given => ?_⟩, ?_, ?_⟩
  · exact Input.canLeave_of_ofLine (exits left)
  · exact handle_exit ((Input.ofLine_padded_iff blankBefore blankAfter).mpr given)
  · rintro ⟨line, output, last, left⟩
    exact Input.canLeave_of_ofLine (exits left)
  · intro given
    have blank : Text.trimmed [] = [] := rfl
    exact ⟨_, _, _, handle_exit ((Input.ofLine_padded_iff blank blank).mpr given)⟩

/-- A session that has defined a name is left by its exit command between a no-break space with a
tab and an ideographic space. -/
theorem handle_exitCommand_padded :
    let settings := { Settings.default with exitCommand := utf8 "adios" }
    let lines := [utf8 "variable x = 5;", utf8 ":vars", utf8 "salir()"]
    settings.issues = [] ∧ ∃ replies session,
      (start settings).handleAll 0 lines = some (replies, session) ∧
      session.handle 0 (utf8 "\u00a0\tadios\u3000") = some (⟨[], false⟩, session) := by
  intro settings lines
  have runs : ((start settings).handleAll 0 lines).isSome = true := by decide +kernel
  obtain ⟨⟨replies, session⟩, reached⟩ := Option.isSome_iff_exists.mp runs
  have left := (handle_exitCommand reached).1 (utf8 "\u00a0\t") (utf8 "\u3000")
    (by decide +kernel) (by decide +kernel)
  exact ⟨by decide +kernel, replies, session, reached, left.mpr (by decide +kernel)⟩

/-- Settings with a space behind the exit command have no issues, and the command is taken for a
program: the session answers it and goes on. -/
theorem handle_exitCommand_spaced :
    let settings := { Settings.default with exitCommand := utf8 "adios ", color := false }
    settings.issues = [] ∧
      ((start settings).handle 0 settings.exitCommand).map
          (fun found => (found.1.output, found.1.goesOn)) =
        some (utf8 "Identificador sin definir: \"adios\" cerca de la línea 1\n", true) := by
  decide +kernel

end Session

end Lengua
