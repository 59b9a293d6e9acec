import Lengua.Eval
import Lengua.Settings
import Lengua.Text.Blank
import Lengua.Tree.Reader

/-!
# Sessions

A session takes lines one by one. A line is a program, unless it is blank, ends the
session, or starts with a colon and asks about the session itself. Programs share one
global scope; each has the full limits for itself. A program with syntax errors is not
run, but it is remembered as the last one read.
-/

namespace Lengua

/-- What a line is. -/
inductive Input where
  /-- Nothing but white space. -/
  | blank
  /-- The end of the session. -/
  | exit
  /-- A question about the session. -/
  | question (code : Text)
  /-- A program. -/
  | program (reading : Reading)

/-- What a line is under given settings. White space around it does not count, but a program is
read from the line as it stands. -/
def Input.ofLine (settings : Settings) (line : Text) : Input :=
  let code := line.trimmed
  if code.isEmpty then .blank
  else if code = settings.exitCommand then .exit
  else if code.head? == some 0x3A then .question code
  else .program (Program.ofText line)

/-- The state of a session. -/
structure Session where
  /-- Its settings. -/
  settings : Settings
  /-- All scopes; the first is the global one. -/
  forest : Forest
  /-- The last program read. -/
  last : Option Program

/-- What a session says to a line. -/
structure Reply where
  /-- What it writes. -/
  output : Text
  /-- Whether it goes on. -/
  goesOn : Bool

namespace Session

/-- A new session. -/
def start (settings : Settings) : Session := ⟨settings, Forest.single, none⟩

/-- The number of the global scope. -/
def globalScope : ScopeId := 0

/-- A text in a colour of the terminal, by its code, if answers are coloured. -/
def painted (settings : Settings) (code : Nat) (text : Text) : Text :=
  if settings.color then
    utf8 "\x1b[" ++ Text.ofNat code ++ utf8 "m" ++ text ++ utf8 "\x1b[0m"
  else text

/-- A line of output that reports an error. -/
def errorLine (settings : Settings) (text : Text) : Text := painted settings 31 text ++ utf8 "\n"

/-- A line of output that shows a value. -/
def valueLine (settings : Settings) (text : Text) : Text := painted settings 94 text ++ utf8 "\n"

/-- What a session writes about the value of a program. -/
def shown (settings : Settings) (value : Value) : Text :=
  if value.isError then errorLine settings value.inspect else valueLine settings value.inspect

/-- The answer to a question about the session. -/
def answer (session : Session) (code : Text) : Text :=
  if code = utf8 ":vars" then
    (session.forest.bindings globalScope).flatMap fun (name, value) =>
      name ++ utf8 " = " ++ value.inspect ++ utf8 "\n"
  else if code = utf8 ":ast" then
    match session.last with
    | none => []
    | some program => program.render ++ utf8 "\n"
  else if code = utf8 ":builtins" then
    Text.joined (utf8 "\n") (Builtin.standard.map Builtin.name) ++ utf8 "\n"
  else
    utf8 "Comando desconocido: " ++ code ++ utf8 ". Usa :vars, :ast, :builtins o " ++
      session.settings.exitCommand ++ utf8 ".\n"

/-- Runs a program that was read, unless it has syntax errors. There is no outcome only when the
limits bound nothing and calls nest deeper than `fallback`. -/
def runProgram (session : Session) (fallback : Nat) (reading : Reading) :
    Option (Text × Session) :=
  let remembering := { session with last := some reading.program }
  match reading.errors with
  | [] => do
    let (value, forest) ← session.settings.limits.evaluate Host.empty fallback
      (.program reading.program) globalScope session.forest
    some (shown session.settings value, { remembering with forest })
  | errors =>
    some (errors.flatMap fun error => errorLine session.settings error.message, remembering)

/-- Takes a line. -/
def handle (session : Session) (fallback : Nat) (line : Text) : Option (Reply × Session) :=
  match Input.ofLine session.settings line with
  | .blank => some (⟨[], true⟩, session)
  | .exit => some (⟨[], false⟩, session)
  | .question code => some (⟨session.answer code, true⟩, session)
  | .program reading => do
    let (output, after) ← session.runProgram fallback reading
    some (⟨output, true⟩, after)

end Session

end Lengua
