import Lengua.Command
import Lengua.Console.Decoder
import Lengua.Console.LineEditor

/-!
# The program

Carries out a command line with a decoder and a line editor of its own: reads the files
that its stages ask for, writes what they give, and leads a conversation line by line.
-/

namespace Lengua.Console

/-- How deep calls are followed when no limit is set. -/
def unboundedNesting : Nat := 1000000000

/-- The bytes of a word of the system. -/
def textOf (word : String) : Text := word.toUTF8.toList

/-- A path as the system wants it. -/
def wordOf (path : Text) : String := (String.fromUTF8? ⟨path.toArray⟩).getD ""

/-- What a failure to read means. Code 21 of the system stands for a directory. -/
def faultOf : IO.Error → ReadFault
  | .noFileOrDirectory _ _ _ => .missing
  | .inappropriateType _ code _ => if code = 21 then .isDirectory else .notDirectory
  | _ => .notDirectory

/-- Reads the file at a path. -/
def readFile (path : Text) : IO (Except ReadFault Text) := do
  try
    let content ← IO.FS.readBinFile (wordOf path)
    return .ok content.toList
  catch error => return .error (faultOf error)

/-- Writes a file, if that can be done. -/
def saveFile (path content : Text) : IO Unit := do
  try
    IO.FS.writeBinFile (wordOf path) ⟨content.toArray⟩
  catch _ => return ()

/-- Writes a text at once. -/
def write (stream : IO.FS.Stream) (text : Text) : IO Unit := do
  stream.write ⟨text.toArray⟩
  stream.flush

/-- Writes what a command leaves behind and gives its exit code. -/
def conclude (outcome : Outcome) : IO UInt32 := do
  write (← IO.getStdout) outcome.output
  write (← IO.getStderr) outcome.errors
  if let some (path, content) := outcome.saved then saveFile path content
  return UInt32.ofNat outcome.code

/-- Gives up on calls that nest too deep to be followed. -/
def giveUp : IO UInt32 := conclude (.failure 2 (Outcome.report (utf8 "calls nest too deep")))

/-- What the editor of a conversation remembers; it is asked for nothing else. -/
abbrev editor : Editor := lineEditor []

/-- Prompts for a line of the input. -/
def ask (prompt : Text) : IO Prompted := do
  if isShowable prompt then
    write (← IO.getStdout) prompt
    let line ← (← IO.getStdin).getLine
    if line.isEmpty then return .ended
    return .line ((textOf line).lines.foldl (fun text read => text ++ read.line) [])
  else return unshowable

/-- Takes lines from the input until the session or the input ends. -/
partial def follow (dialogue : Dialogue editor) : IO (Option (Turn editor)) := do
  let answer ← ask dialogue.session.settings.prompt
  match dialogue.take unboundedNesting answer with
  | none => return none
  | some turn =>
    write (← IO.getStdout) turn.output
    if turn.goesOn then follow turn.next else return some turn

/-- Leads a conversation. -/
def converse (settings : Settings) (home : Text) : IO UInt32 := do
  let path := settings.historyPath home
  let stored ← if path.isEmpty then pure none else Except.toOption <$> readFile path
  write (← IO.getStdout) Dialogue.greeting
  match ← follow (Dialogue.start editor settings stored) with
  | none => giveUp
  | some last => conclude { Command.conversed path [] last with output := [] }

/-- Carries out an action on the file it asks for. -/
def perform (action : Command.Action) (settings : Settings) : IO UInt32 := do
  let found ← match action with
    | .run path _ | .tokens path | .statements path => readFile path
    | _ => pure (.error .missing)
  match action.perform settings unboundedNesting ⟨fun _ => found, [], decode, editor⟩ with
  | none => giveUp
  | some outcome => conclude outcome

/-- Carries out a command line. -/
def execute (arguments : List Text) (home : Text) : IO UInt32 := do
  match Command.Invocation.ofArguments arguments with
  | .error outcome => conclude outcome
  | .ok invocation =>
    let loaded ← match invocation.settingsPath? home with
      | none => pure (.ok Settings.default)
      | some path => pure (invocation.settings decode path (← readFile path))
    match loaded with
    | .error outcome => conclude outcome
    | .ok settings =>
      match Command.action settings invocation.words with
      | .converse => converse settings home
      | action => perform action settings

end Lengua.Console

/-- The program. -/
def main (arguments : List String) : IO UInt32 := do
  let home := (← IO.getEnv "HOME").getD ""
  Lengua.Console.execute (arguments.map Lengua.Console.textOf) (Lengua.Console.textOf home)
