import Lengua.Eval.Meter
import Lengua.Path

/-!
# Settings

What a user can set about the command line: the prompt and the word that ends a
session, where its lines are remembered, the limits of an evaluation and whether
answers are coloured. `Settings.issues` lists all that is wrong with them.
-/

namespace Lengua

/-- The settings of the command line. -/
structure Settings where
  /-- What is written before each line is read. -/
  prompt : Text
  /-- The line that ends a session. -/
  exitCommand : Text
  /-- The file that remembers lines, none if empty. -/
  historyFile : Text
  /-- The most nodes an evaluation may visit, zero for no bound. -/
  gasLimit : Int
  /-- The most calls that may be active at once, zero for no bound. -/
  maxDepth : Int
  /-- Whether answers are coloured. -/
  color : Bool

/-- What is wrong with settings. -/
inductive SettingsIssue where
  /-- The prompt is empty. -/
  | emptyPrompt
  /-- The bound on visits is negative. -/
  | negativeGas (given : Int)
  /-- The bound on active calls is negative. -/
  | negativeDepth (given : Int)

/-- The wording of an issue. -/
def SettingsIssue.message : SettingsIssue → Text
  | .emptyPrompt => utf8 "prompt must not be empty"
  | .negativeGas given => utf8 "gas_limit must be >= 0, got " ++ Text.ofInt given
  | .negativeDepth given => utf8 "max_depth must be >= 0, got " ++ Text.ofInt given

namespace Settings

/-- The settings of a user who sets nothing. -/
def default : Settings where
  prompt := utf8 ">> "
  exitCommand := utf8 "salir()"
  historyFile := utf8 ".lpp_history"
  gasLimit := Limits.default.gas
  maxDepth := Limits.default.depth
  color := true

/-- The name of the settings file in the home directory. -/
def fileName : Text := utf8 ".lpp.yaml"

/-- All that is wrong with settings. -/
def issues (settings : Settings) : List SettingsIssue :=
  (if settings.prompt.isEmpty then [.emptyPrompt] else []) ++
    (if settings.gasLimit < 0 then [.negativeGas settings.gasLimit] else []) ++
    (if settings.maxDepth < 0 then [.negativeDepth settings.maxDepth] else [])

/-- The limits of an evaluation. A negative setting leaves the limit that holds without it. -/
def limits (settings : Settings) : Limits :=
  Limits.default.override (some settings.gasLimit) (some settings.maxDepth)

/-- The file that remembers lines, inside a directory unless its path is absolute. -/
def historyPath (settings : Settings) (directory : Text) : Text :=
  if settings.historyFile.isEmpty || Path.isAbsolute settings.historyFile then settings.historyFile
  else Path.join directory settings.historyFile

end Settings

end Lengua
