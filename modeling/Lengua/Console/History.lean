import Lengua.Text.Lines
import Lengua.Text.Utf8

/-!
# Remembered lines

The lines of earlier sessions and of this one. Only the latest are kept, and a line equal
to the one before it is not added again. A history is stored one line an entry, and read
back up to the first line that is too long or not well-formed text.
-/

namespace Lengua.Console

/-- The remembered lines. -/
structure History where
  /-- The lines, latest first. -/
  entries : List Text

namespace History

/-- No lines. -/
def empty : History := ⟨[]⟩

/-- The most lines that are kept. -/
def limit : Nat := 1000

/-- Puts a line after the others. -/
def push (history : History) (line : Text) : History := ⟨(line :: history.entries).take limit⟩

/-- Adds a line, unless it repeats the last one. -/
def add (history : History) (line : Text) : History :=
  if history.entries.head? == some line then history else history.push line

/-- Puts the lines of a stored history after the others. -/
def restore (history : History) (stored : Text) : History :=
  let readable := stored.lines.takeWhile fun read => read.complete && read.line.isUtf8
  readable.foldl (fun history read => history.push read.line) history

/-- A history as it is stored. -/
def render (history : History) : Text :=
  history.entries.reverse.flatMap fun line => line ++ [Text.newline]

end History

end Lengua.Console
