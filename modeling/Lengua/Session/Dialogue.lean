import Lengua.Session

/-!
# Dialogues

A dialogue prompts for lines and hands them to a session until the session or the input
ends. The lines come from a line editor, which remembers those that are not blank. A
line can be given up, and the dialogue then goes on; it ends with a report if the editor
fails.
-/

namespace Lengua

/-- What a line editor answers to a prompt. -/
inductive Prompted where
  /-- A line. -/
  | line (line : Text)
  /-- The line was given up. -/
  | aborted
  /-- The input has ended. -/
  | ended
  /-- No line can be read, with a report. -/
  | failed (report : Text)

/-- A line editor: what it remembers, and its answers. -/
structure Editor where
  /-- What there is to remember. -/
  Memory : Type
  /-- What it remembers at first. -/
  blank : Memory
  /-- Adds what was stored before. -/
  restore : Memory → Text → Memory
  /-- Remembers a line. -/
  remember : Memory → Text → Memory
  /-- What it remembers, as it is stored. -/
  store : Memory → Text
  /-- Its answers each time it is given a prompt, and what it writes before each. -/
  answers : Text → List (Text × Prompted)

/-- A session and what an editor remembers of it. -/
structure Dialogue (editor : Editor) where
  /-- The session. -/
  session : Session
  /-- What the editor remembers. -/
  memory : editor.Memory

/-- What an answer leads to. -/
structure Turn (editor : Editor) where
  /-- What is written. -/
  output : Text
  /-- Whether the dialogue goes on. -/
  goesOn : Bool
  /-- The report of the editor, if it has failed. -/
  failure : Option Text
  /-- The dialogue after it. -/
  next : Dialogue editor

namespace Dialogue

variable {editor : Editor}

/-- What is written at the start. -/
def greeting : Text :=
  utf8 "Bienvenido al Lenguaje de Programación Platzi.\n" ++
    utf8 "Escribe un enunciado para comenzar; salir() para terminar.\n"

/-- A dialogue at its start, with what was stored before, if anything. -/
def start (editor : Editor) (settings : Settings) (stored : Option Text) : Dialogue editor :=
  ⟨.start settings, (stored.map (editor.restore editor.blank)).getD editor.blank⟩

/-- The dialogue with a line remembered, unless it is blank. -/
def remember (dialogue : Dialogue editor) (line : Text) : Dialogue editor :=
  if line.trimmed.isEmpty then dialogue
  else { dialogue with memory := editor.remember dialogue.memory line }

/-- Takes an answer. -/
def take (dialogue : Dialogue editor) (fallback : Nat) : Prompted → Option (Turn editor)
  | .line line => do
    let (reply, session) ← dialogue.session.handle fallback line
    some ⟨reply.output, reply.goesOn, none, { dialogue.remember line with session }⟩
  | .aborted => some ⟨[], true, none, dialogue⟩
  | .ended => some ⟨utf8 "\n", false, none, dialogue⟩
  | .failed report => some ⟨[], false, some report, dialogue⟩

/-- Takes answers until the dialogue ends, and gives all that is written with what the last answer
leads to. There is nothing if it does not end. -/
def follow (dialogue : Dialogue editor) (fallback : Nat) :
    List (Text × Prompted) → Option (Text × Turn editor)
  | [] => none
  | (prompt, answer) :: rest => do
    let turn ← dialogue.take fallback answer
    let written := prompt ++ turn.output
    if turn.goesOn then
      let (later, last) ← turn.next.follow fallback rest
      some (written ++ later, last)
    else some (written, turn)

end Dialogue

end Lengua
