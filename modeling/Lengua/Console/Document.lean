import Lengua.Text.Blank
import Lengua.Text.Integer
import Lengua.Text.Lines

/-!
# Settings documents

A document is a list of entries, one a line, each a key, a colon and a value. A value is
plain, or between quotation marks; a list in brackets or a table in braces is recognised
and not looked into. Empty lines and comments do not count. Three dashes at the start of
the first line may open the document, and at the start of a later line, as three points,
they end it. A document can also be a single value, or nothing. Every other form is told
apart and not read.
-/

namespace Lengua.Console

/-- A value of a document. -/
inductive Content where
  /-- A single value, and whether it stood between quotation marks. -/
  | scalar (text : Text) (quoted : Bool)
  /-- A list of values. -/
  | sequence
  /-- A table of values. -/
  | mapping

/-- A key and its value. -/
structure Entry where
  /-- The line it stands on, counted from one. -/
  line : Nat
  /-- The key. -/
  key : Text
  /-- Whether the key stood between quotation marks. -/
  quotedKey : Bool
  /-- The value. -/
  content : Content

/-- A whole document. -/
inductive Document where
  /-- Nothing but empty lines and comments. -/
  | empty
  /-- A single value and its line. -/
  | single (line : Nat) (content : Content)
  /-- Keys and values. -/
  | entries (entries : List Entry)
  /-- A line in a form that is not read. -/
  | unknown (line : Nat)

/-- A space or a tab. -/
def isGap (byte : UInt8) : Bool := byte == Text.space || byte == 0x09

/-- What stands before a comment. A comment starts with a number sign that opens the text or
follows a gap. -/
def uncommented (afterGap : Bool) : Text → Text
  | [] => []
  | byte :: rest =>
    if afterGap && byte == 0x23 then [] else byte :: uncommented (isGap byte) rest

/-- The text up to a single quotation mark, two of which stand for one, and what follows. -/
def singleQuoted? : Text → Option (Text × Text)
  | 0x27 :: 0x27 :: rest => (singleQuoted? rest).map fun (inside, after) => (0x27 :: inside, after)
  | 0x27 :: rest => some ([], rest)
  | byte :: rest => (singleQuoted? rest).map fun (inside, after) => (byte :: inside, after)
  | [] => none

/-- The bytes of the character with a hexadecimal code. -/
def ofHexadecimal (digits : List UInt8) : Text :=
  let code := digits.foldl (fun value digit => value * 16 + (Text.digitValue? digit).getD 0) 0
  String.utf8EncodeChar (Char.ofNat code)

/-- The codes that letters stand for after a backslash. -/
def escapeCodes : List (Char × Nat) :=
  [('0', 0x00), ('a', 0x07), ('b', 0x08), ('t', 0x09), ('n', 0x0A), ('v', 0x0B), ('f', 0x0C),
    ('r', 0x0D), ('e', 0x1B), ('N', 0x85), ('_', 0xA0), ('L', 0x2028), ('P', 0x2029)]

/-- The bytes a letter stands for after a backslash; one without a code stands for itself. -/
def escaped (letter : UInt8) : Text :=
  match escapeCodes.lookup (Char.ofNat letter.toNat) with
  | some code => String.utf8EncodeChar (Char.ofNat code)
  | none => [letter]

/-- The number of hexadecimal digits a letter announces after a backslash. -/
def codeWidth (letter : UInt8) : Nat :=
  if letter == 0x78 then 2 else if letter == 0x75 then 4 else if letter == 0x55 then 8 else 0

/-- What a backslash before a text stands for, and the number of bytes of the text that belong
to it. -/
def escape : Text → Text × Nat
  | [] => ([], 0)
  | letter :: rest =>
    match codeWidth letter with
    | 0 => (escaped letter, 1)
    | width => (ofHexadecimal (rest.take width), width + 1)

/-- The text up to a double quotation mark, with its escapes resolved, and what follows. The
first `skip` bytes belong to an escape already resolved. -/
def doubleQuotedAfter? : Nat → Text → Option (Text × Text)
  | _, [] => none
  | skip + 1, _ :: rest => doubleQuotedAfter? skip rest
  | 0, byte :: rest =>
    if byte == Text.doubleQuote then some ([], rest)
    else
      let (meant, skip) := if byte == 0x5C then escape rest else ([byte], 0)
      (doubleQuotedAfter? skip rest).map fun (inside, after) => (meant ++ inside, after)

/-- The text up to a double quotation mark, with its escapes resolved, and what follows. -/
def doubleQuoted? (text : Text) : Option (Text × Text) := doubleQuotedAfter? 0 text

/-- Whether there is more in a text than gaps and a comment. -/
def isSignificant (text : Text) : Bool := !(uncommented true (text.dropWhile isGap)).isEmpty

/-- The value between quotation marks, if nothing follows it. -/
def Content.quoted? (read : Option (Text × Text)) : Option Content :=
  match read with
  | some (inside, after) => if isSignificant after then none else some (.scalar inside true)
  | none => none

/-- Whether a byte opens a value of another form: an anchor, an alias, a tag, a block of lines, or
one that is reserved. -/
def opensOther (byte : UInt8) : Bool := (utf8 "&*!|>%@\x60").contains byte

/-- The value in a text without leading gaps. -/
def Content.ofText? : Text → Option Content
  | 0x22 :: rest => Content.quoted? (doubleQuoted? rest)
  | 0x27 :: rest => Content.quoted? (singleQuoted? rest)
  | 0x5B :: _ => some .sequence
  | 0x7B :: _ => some .mapping
  | text =>
    if text.head?.any opensOther then none
    else some (.scalar (Text.stripped isGap (uncommented true text)) false)

/-- What follows the colon at the start of a text, which has a gap or nothing after it. -/
def afterColon? : Text → Option Text
  | [0x3A] => some []
  | 0x3A :: next :: rest => if isGap next then some rest else none
  | _ => none

/-- A plain key and what follows its colon. -/
def plainKey? (afterGap : Bool) : Text → Option (Text × Text)
  | [] => none
  | byte :: rest =>
    if afterGap && byte == 0x23 then none
    else match afterColon? (byte :: rest) with
      | some after => some ([], after)
      | none => (plainKey? (isGap byte) rest).map fun (key, after) => (byte :: key, after)

/-- The key a line without leading gaps starts with, and what follows its colon. -/
def key? : Text → Option (Text × Text)
  | 0x22 :: rest => do
    let (key, after) ← doubleQuoted? rest
    (afterColon? (after.dropWhile isGap)).map (key, ·)
  | 0x27 :: rest => do
    let (key, after) ← singleQuoted? rest
    (afterColon? (after.dropWhile isGap)).map (key, ·)
  | 0x5B :: _ | 0x7B :: _ => none
  | text => (plainKey? true text).map fun (key, after) => (Text.stripped isGap key, after)

/-- Whether a line without leading gaps is an item of a list. -/
def isItem : Text → Bool
  | [0x2D] => true
  | 0x2D :: next :: _ => isGap next
  | _ => false

/-- What follows a mark of three bytes at the start of a line, which has a gap or nothing
after it. -/
def afterMark? (mark line : Text) : Option Text :=
  let after := line.drop 3
  if line.take 3 = mark && after.head?.all isGap then some after else none

/-- Whether a line ends a document. -/
def isEnd (line : Text) : Bool :=
  (afterMark? (utf8 "---") line).isSome || (afterMark? (utf8 "...") line).isSome

/-- The lines after the three dashes that may open a document, which may start on their line. -/
def withoutOpening : List (Text × Nat) → List (Text × Nat)
  | [] => []
  | (line, number) :: rest =>
    match afterMark? (utf8 "---") line with
    | none => (line, number) :: rest
    | some after => if isSignificant after then (after, number) :: rest else rest

/-- A text without the mark of its encoding. -/
def withoutEncodingMark : Text → Text
  | 0xEF :: 0xBB :: 0xBF :: rest => rest
  | text => text

/-- The lines of a document that count, without leading gaps, and their numbers. -/
def documentLines (source : Text) : List (Text × Nat) :=
  let lines := (Text.splitOn Text.newline (withoutEncodingMark source)).map Text.withoutReturn
  let significant := (lines.zipIdx 1).filter (isSignificant ·.1)
  ((withoutOpening significant).takeWhile (!isEnd ·.1)).map fun (line, number) =>
    (line.dropWhile isGap, number)

/-- Whether a line without leading gaps starts with a quotation mark. -/
def startsQuoted (line : Text) : Bool :=
  line.head?.any fun byte => byte == Text.doubleQuote || byte == Text.singleQuote

/-- The entry on a line. -/
def Entry.ofLine? (line : Text × Nat) : Option Entry := do
  let (key, after) ← key? line.1
  let content ← Content.ofText? (after.dropWhile isGap)
  some ⟨line.2, key, startsQuoted line.1, content⟩

/-- A document of entries, one a line. -/
def Document.ofEntries : List (Text × Nat) → Document
  | [] => .entries []
  | line :: rest =>
    match Entry.ofLine? line, ofEntries rest with
    | none, _ => .unknown line.2
    | some entry, .entries others => .entries (entry :: others)
    | some _, other => other

/-- A document that is a single value. Of tables only the one without entries is read. -/
def Document.ofSingle (text : Text) (line : Nat) : Document :=
  match Content.ofText? text with
  | none => .unknown line
  | some .mapping =>
    if Text.stripped isGap (uncommented true text) = utf8 "\x7b\x7d" then .single line .mapping
    else .unknown line
  | some content => .single line content

/-- Reads a document. -/
def Document.ofText (source : Text) : Document :=
  match documentLines source with
  | [] => .empty
  | (line, number) :: rest =>
    if isItem line then .single number .sequence
    else if (key? line).isSome then .ofEntries ((line, number) :: rest)
    else .ofSingle line number

end Lengua.Console
