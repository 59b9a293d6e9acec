import Lengua.Text

/-!
# Lines of a text

A line ends with a line feed, which takes a carriage return before it along, or with the
text. A line longer than the buffer comes in parts, and a carriage return is never the
last byte of a part, since its line feed might follow.
-/

namespace Lengua.Text

/-- Carriage return. -/
def carriageReturn : UInt8 := 0x0D

/-- The most bytes that are looked at for the end of a line. -/
def lineBuffer : Nat := 4096

/-- What reading a line gives. -/
structure LineRead where
  /-- The line without its end, or a part of it. -/
  line : Text
  /-- Whether the line was read to its end. -/
  complete : Bool
  /-- The text after it. -/
  rest : Text

/-- A line without the carriage return that belongs to its end. -/
def withoutReturn (line : Text) : Text :=
  if line.getLast? == some carriageReturn then line.dropLast else line

/-- Reads the next line, if the text is not at its end. -/
def nextLine? (text : Text) : Option LineRead :=
  let ahead := text.take lineBuffer
  let line := ahead.takeWhile (· != newline)
  if text.isEmpty then none
  else if line.length < ahead.length then
    some ⟨withoutReturn line, true, text.drop (line.length + 1)⟩
  else if ahead.length < lineBuffer then some ⟨line, true, []⟩
  else
    let part := withoutReturn line
    some ⟨part, false, text.drop part.length⟩

/-- The first `bound` lines and parts of lines. -/
def linesWithin : Nat → Text → List LineRead
  | 0, _ => []
  | bound + 1, text =>
    match nextLine? text with
    | none => []
    | some read => read :: linesWithin bound read.rest

/-- The lines of a text, long ones in parts. Each takes at least one byte. -/
def lines (text : Text) : List LineRead := linesWithin text.length text

end Lengua.Text
