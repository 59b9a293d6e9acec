import Lengua.Command.Disk
import Lengua.Command.Flag
import Lengua.Session.Dialogue
import Lengua.Settings.Decode

/-!
# The command line

Arguments are read in three stages. The flags before the command name the settings file;
the settings and the remaining arguments decide on an action; and an action is carried out
on the source or in the dialogue it asks for. What a command line is carried out with, the
files, the decoder of settings and the line editor, is given to it (`Surroundings`).
-/

namespace Lengua

/-- What a command leaves behind. -/
structure Outcome where
  /-- The exit code. -/
  code : Nat
  /-- What is written to the standard output. -/
  output : Text
  /-- What is written to the standard error. -/
  errors : Text
  /-- A file to be written, by its path, with its content. -/
  saved : Option (Text × Text)

namespace Outcome

/-- Success with some output. -/
def success (output : Text) : Outcome := ⟨0, output, [], none⟩

/-- Failure with a report. -/
def failure (code : Nat) (errors : Text) : Outcome := ⟨code, [], errors, none⟩

/-- A report in the name of the program. -/
def report (message : Text) : Text := utf8 "lpp: " ++ message ++ utf8 "\n"

end Outcome

namespace Command

/-- What the program says about its use. -/
def usage : Text :=
  (["Usage: lpp [--config file] <command> [arguments]",
    "",
    "Commands:",
    "  run <file> [-gas n] [-depth n]   evaluate a program and print its result",
    "  repl                             start an interactive session (default)",
    "  tokens <file>                    print the token stream",
    "  ast <file>                       print the canonical rendering of the program",
    "  version                          print the version"].flatMap fun line =>
    utf8 line ++ utf8 "\n")

/-- What the program says about the use of a run. -/
def runUsage : Text := utf8 "Usage: lpp run <file> [-gas n] [-depth n]\n"

/-- The description of a flag with its default, which is left out when zero. -/
def flagUsage (name description : String) (default : Int) : Text :=
  utf8 "  -" ++ utf8 name ++ utf8 " int\n    \t" ++ utf8 description ++
    (if default = 0 then [] else utf8 " (default " ++ Text.ofInt default ++ utf8 ")") ++ utf8 "\n"

/-- The description of the flags of a run under given settings. -/
def runFlagUsage (settings : Settings) : Text :=
  utf8 "Usage of run:\n" ++
    flagUsage "depth" "maximum nested calls, 0 for no limit" settings.maxDepth ++
    flagUsage "gas" "maximum evaluation steps, 0 for no limit" settings.gasLimit

/-! ## Stage one: the settings file -/

/-- A command line up to its command. -/
structure Invocation where
  /-- The settings file that was asked for, none if empty. -/
  settingsFile : Text
  /-- The command and its arguments. -/
  words : List Text

/-- The flags before the command. -/
def globalFlags : FlagSet Text := fun name =>
  if name = utf8 "config" then some fun _ value => .ok value else none

/-- Reads the flags before the command. -/
def Invocation.ofArguments (arguments : List Text) : Except Outcome Invocation :=
  match globalFlags.read [] arguments with
  | .ok (settingsFile, words) => .ok ⟨settingsFile, words⟩
  | .error fault => .error (.failure 2 (fault.message ++ usage))

/-- The path of the settings: the one asked for, or else the one in the home directory. There is
none without a home. -/
def Invocation.settingsPath? (invocation : Invocation) (home : Text) : Option Text :=
  if !invocation.settingsFile.isEmpty then some invocation.settingsFile
  else if home.isEmpty then none
  else some (Path.join home Settings.fileName)

/-- The settings in what was found at their path. Only a file that was asked for has to be there,
and a directory is no document that could be read. -/
def Invocation.settings (invocation : Invocation) (decode : Settings.Decoder) (path : Text)
    (found : Except ReadFault Text) : Except Outcome Settings :=
  let refused (message : Text) : Except Outcome Settings :=
    .error (.failure 1 (Outcome.report message))
  let decoded (document : Except Text Text) : Except Outcome Settings :=
    match Settings.ofDocument decode document with
    | .ok settings => .ok settings
    | .error error => refused (path ++ utf8 ": " ++ error.message)
  match found with
  | .ok source => decoded (.ok source)
  | .error .isDirectory => decoded (.error (ReadFault.isDirectory.message path))
  | .error fault =>
    match fault, invocation.settingsFile with
    | .missing, [] => .ok Settings.default
    | _, _ => refused (utf8 "config: open " ++ path ++ utf8 ": " ++ fault.message path)

/-! ## Stage two: the action -/

/-- What a command line asks for. -/
inductive Action where
  /-- Nothing more: the outcome is known. -/
  | finished (outcome : Outcome)
  /-- To run the program in a file under limits. -/
  | run (path : Text) (limits : Limits)
  /-- To show the tokens of a file. -/
  | tokens (path : Text)
  /-- To show the statements of a file in canonical form. -/
  | statements (path : Text)
  /-- To converse. -/
  | converse

/-- The options of a run, as they were given. -/
structure RunOptions where
  /-- The bound on visits. -/
  gas : Int
  /-- The bound on active calls. -/
  depth : Int

/-- The flags of a run. -/
def runFlags : FlagSet RunOptions := fun name =>
  if name = utf8 "gas" then
    some fun options value => do .ok { options with gas := ← Text.readSigned true value }
  else if name = utf8 "depth" then
    some fun options value => do .ok { options with depth := ← Text.readSigned true value }
  else none

/-- The action of a run. A negative bound leaves the one that holds without any. -/
def runAction (settings : Settings) : List Text → Action
  | [] => .finished (.failure 2 runUsage)
  | path :: flags =>
    match runFlags.read ⟨settings.gasLimit, settings.maxDepth⟩ flags with
    | .ok (options, _) =>
      .run path (Limits.default.override (some options.gas) (some options.depth))
    | .error fault => .finished (.failure 2 (fault.message ++ runFlagUsage settings))

/-- The action of a command with one file as its only argument. -/
def fileAction (name : String) (action : Text → Action) : List Text → Action
  | [path] => action path
  | _ =>
    .finished (.failure 2 (Outcome.report (utf8 "usage: lpp " ++ utf8 name ++ utf8 " <file>")))

/-- The action that settings and arguments ask for. -/
def action (settings : Settings) : List Text → Action
  | [] => .converse
  | command :: arguments =>
    if command = utf8 "run" then runAction settings arguments
    else if command = utf8 "repl" then .converse
    else if command = utf8 "tokens" then fileAction "tokens" .tokens arguments
    else if command = utf8 "ast" then fileAction "ast" .statements arguments
    else if command = utf8 "version" then .finished (.success (utf8 "lpp dev\n"))
    else if command = utf8 "help" || command = utf8 "-h" || command = utf8 "--help" then
      .finished (.success usage)
    else .finished (.failure 2 (utf8 "Unknown command: " ++ command ++ utf8 "\n" ++ usage))

/-! ## Stage three: the outcome -/

/-- The reports of syntax errors, one a line. -/
def errorLines (errors : List SyntaxError) : Text :=
  errors.flatMap fun error => error.message ++ utf8 "\n"

/-- The outcome of running a source. There is none only when the limits bound nothing and calls
nest deeper than `fallback`. -/
def runSource (limits : Limits) (fallback : Nat) (source : Text) : Option Outcome :=
  let reading := Program.ofText source
  match reading.errors with
  | [] => do
    let (value, _) ← limits.evaluate Host.empty fallback (.program reading.program)
      Session.globalScope Forest.single
    match value with
    | .error _ _ => some (.failure 1 (value.inspect ++ utf8 "\n"))
    | .null => some (.success [])
    | _ => some (.success (value.inspect ++ utf8 "\n"))
  | errors => some (.failure 1 (errorLines errors))

/-- A text at the left of a column, filled with spaces. -/
def columnLeft (width : Nat) (text : Text) : Text :=
  text ++ List.replicate (width - text.length) Text.space

/-- A text at the right of a column, filled with spaces. -/
def columnRight (width : Nat) (text : Text) : Text :=
  List.replicate (width - text.length) Text.space ++ text

/-- A token in a table: its line, its kind and its literal in quotation marks. -/
def tokenLine (token : Token) : Text :=
  columnRight 4 (Text.ofInt token.line) ++ utf8 "  " ++ columnLeft 14 (utf8 token.kind.name) ++
    utf8 " " ++ Text.quoted token.literal ++ utf8 "\n"

/-- The outcome of showing the tokens of a source. -/
def showTokens (source : Text) : Outcome := .success ((Token.scan source).flatMap tokenLine)

/-- The outcome of showing the statements of a source, those that could be read even if others
could not. -/
def showStatements (source : Text) : Outcome :=
  let reading := Program.ofText source
  let output := reading.program.stmts.flatMap fun stmt => stmt.render ++ utf8 "\n"
  match reading.errors with
  | [] => .success output
  | errors => ⟨1, output, errorLines errors, none⟩

/-- The outcome of an action on what was found at its path. -/
def onSource (path : Text) (found : Except ReadFault Text) (next : Text → Option Outcome) :
    Option Outcome :=
  match found with
  | .ok source => next source
  | .error fault =>
    some (.failure 1 (Outcome.report (utf8 "reading " ++ path ++ utf8 ": " ++ fault.message path)))

/-- What a command line is carried out with. -/
structure Surroundings where
  /-- What is found at a path. -/
  read : Text → Except ReadFault Text
  /-- The home directory, empty if there is none. -/
  home : Text
  /-- The decoder of settings. -/
  decode : Settings.Decoder
  /-- The line editor. -/
  editor : Editor

/-- What is stored at the path of the history, if anything. No file is asked for without a path. -/
def Surroundings.stored (surroundings : Surroundings) (historyPath : Text) : Option Text :=
  if historyPath.isEmpty then none else (surroundings.read historyPath).toOption

/-- What a dialogue leaves behind. The history is saved however the dialogue ends, unless there is
no path for it. -/
def conversed {editor : Editor} (historyPath written : Text) (last : Turn editor) : Outcome :=
  let output := Dialogue.greeting ++ written
  let saved :=
    if historyPath.isEmpty then none else some (historyPath, editor.store last.next.memory)
  match last.failure with
  | none => ⟨0, output, [], saved⟩
  | some report => ⟨1, output, Outcome.report (utf8 "reading input: " ++ report), saved⟩

/-- The outcome of a dialogue. There is none if it does not end. -/
def converse (settings : Settings) (fallback : Nat) (surroundings : Surroundings) :
    Option Outcome := do
  let historyPath := settings.historyPath surroundings.home
  let opening := Dialogue.start surroundings.editor settings (surroundings.stored historyPath)
  let (written, last) ← opening.follow fallback (surroundings.editor.answers settings.prompt)
  some (conversed historyPath written last)

/-- The outcome of an action. -/
def Action.perform (action : Action) (settings : Settings) (fallback : Nat)
    (surroundings : Surroundings) : Option Outcome :=
  match action with
  | .finished outcome => some outcome
  | .run path limits => onSource path (surroundings.read path) (runSource limits fallback)
  | .tokens path => onSource path (surroundings.read path) fun source => some (showTokens source)
  | .statements path =>
    onSource path (surroundings.read path) fun source => some (showStatements source)
  | .converse => Command.converse settings fallback surroundings

/-- The settings a command line asks for. -/
def Invocation.load (invocation : Invocation) (surroundings : Surroundings) :
    Except Outcome Settings :=
  match invocation.settingsPath? surroundings.home with
  | none => .ok Settings.default
  | some path => invocation.settings surroundings.decode path (surroundings.read path)

/-- The outcome of a command line. -/
def execute (arguments : List Text) (fallback : Nat) (surroundings : Surroundings) :
    Option Outcome :=
  match Invocation.ofArguments arguments with
  | .error outcome => some outcome
  | .ok invocation =>
    match invocation.load surroundings with
    | .error outcome => some outcome
    | .ok settings => (action settings invocation.words).perform settings fallback surroundings

end Command

end Lengua
