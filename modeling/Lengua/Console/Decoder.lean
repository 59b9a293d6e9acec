import Lengua.Console.Decimal
import Lengua.Console.Document
import Lengua.Console.Moment
import Lengua.Settings.Decode
import Lengua.Text.Quoted

/-!
# The decoder of the program

A document changes settings, entry by entry. A plain value is null, a truth value, an
integer, a fraction, a moment or else a string; a quoted one is always a string. A field
takes what fits its type, null leaves it as it is, and all misfits are reported together
in the order of the document. Keys that occur twice are reported instead of anything
else.

Everything else is said of any decoder; this one only has to serve the program.
-/

namespace Lengua.Console

/-- What a value of a document means. -/
inductive Meaning where
  /-- No value. -/
  | null
  /-- A truth value. -/
  | bool (value : Bool)
  /-- An integer. -/
  | int (value : Int)
  /-- A fraction, by the whole part of its binary value and its sign. The infinities and what is
  no number at all have no whole part. -/
  | float (negative : Bool) (whole : Option Nat)
  /-- A date, possibly with a time of day. -/
  | moment
  /-- A string. -/
  | str (text : Text)

/-- The name of a meaning's type. -/
def Meaning.tag : Meaning → String
  | .null => "!!null"
  | .bool _ => "!!bool"
  | .int _ => "!!int"
  | .float _ _ => "!!float"
  | .moment => "!!timestamp"
  | .str _ => "!!str"

/-- A plain value without its underscores. After a leading point each has to stand between two
digits; elsewhere any number of them may stand anywhere. -/
def ungrouped? (text : Text) : Option Text :=
  if text.head? == some 0x2E && !Text.wellGrouped text then none
  else some (text.filter (· != Text.underscore))

/-- An integer of base two or eight whose sign follows the announcement of the base. -/
def lateSigned? : Text → Option Int
  | 0x30 :: 0x62 :: digits => (Text.readSignedIn 2 digits).toOption
  | 0x30 :: 0x6F :: digits => (Text.readSignedIn 8 digits).toOption
  | _ => none

/-- The integer a plain value without underscores stands for. It may have 64 bits without a sign
or with one. -/
def integer? (text : Text) : Option Int :=
  match Text.readSigned true text, Text.readUnsigned true text with
  | .ok value, _ => some value
  | .error _, .ok value => some value
  | .error _, .error _ => lateSigned? text

/-- The meaning of a plain value that starts like a number: a moment, an integer or a
fraction. -/
def Meaning.ofNumber? (text : Text) : Option Meaning :=
  if isMoment text then some .moment
  else do
    let ungrouped ← ungrouped? text
    match integer? ungrouped with
    | some value => some (.int value)
    | none =>
      let decimal ← Decimal.ofText? ungrouped
      some (.float decimal.negative (some (← decimal.wholePart?)))

/-- The spellings of null. -/
def nullWords : List Text := ["", "~", "null", "Null", "NULL"].map utf8
/-- The spellings of true. -/
def trueWords : List Text := ["true", "True", "TRUE"].map utf8
/-- The spellings of false. -/
def falseWords : List Text := ["false", "False", "FALSE"].map utf8
/-- The spellings of the fractions without a whole part that are not below zero. -/
def unboundedWords : List Text :=
  [".inf", ".Inf", ".INF", "+.inf", "+.Inf", "+.INF", ".nan", ".NaN", ".NAN"].map utf8
/-- The spellings of negative infinity. -/
def negativeUnboundedWords : List Text := ["-.inf", "-.Inf", "-.INF"].map utf8
/-- The strings that a truth value may also be written as, for true. -/
def yesWords : List Text := ["y", "Y", "yes", "Yes", "YES", "on", "On", "ON"].map utf8
/-- The strings that a truth value may also be written as, for false. -/
def noWords : List Text := ["n", "N", "no", "No", "NO", "off", "Off", "OFF"].map utf8

/-- Whether a plain value may be a number, by its first byte. -/
def startsNumber (text : Text) : Bool :=
  text.head?.any fun byte => Text.isDigit byte || byte == 0x2B || byte == 0x2D || byte == 0x2E

/-- The meaning of a plain value. -/
def Meaning.ofPlain (text : Text) : Meaning :=
  if nullWords.contains text then .null
  else if trueWords.contains text then .bool true
  else if falseWords.contains text then .bool false
  else if unboundedWords.contains text then .float false none
  else if negativeUnboundedWords.contains text then .float true none
  else if startsNumber text then (Meaning.ofNumber? text).getD (.str text)
  else .str text

/-- The meaning of a single value. -/
def Meaning.ofScalar (text : Text) (quoted : Bool) : Meaning :=
  if quoted then .str text else .ofPlain text

/-- An integer field takes integers of 64 bits, and fractions cut to their whole part. A fraction
too far below is cut to the smallest integer, and so is one just past the largest. -/
def Meaning.int? : Meaning → Option Int
  | .int value => if value < Text.signedLimit then some value else none
  | .float true none => some (-(Text.signedLimit : Nat))
  | .float true (some whole) => some (-(min whole Text.signedLimit : Nat))
  | .float false (some whole) =>
    if whole < Text.signedLimit then some whole
    else if whole = Text.signedLimit then some (-(Text.signedLimit : Nat))
    else none
  | _ => none

/-- A truth field takes truth values and the strings that stand for them. -/
def Meaning.bool? : Meaning → Option Bool
  | .bool value => some value
  | .str text =>
    if yesWords.contains text then some true
    else if noWords.contains text then some false
    else none
  | _ => none

/-- What is wrong with a document. -/
inductive Misfit where
  /-- A value that does not fit what is wanted. A list or a table is not shown. -/
  | wrongType (line : Nat) (tag : String) (shown : Option Text) (wanted : String)
  /-- A key that is no field. -/
  | unknownField (line : Nat) (key : Text)
  /-- A key that occurs on two lines. -/
  | repeatedKey (key : Text) (first second : Nat)
  /-- A line in a form that is not read. -/
  | unknownForm (line : Nat)

/-- A value in a report, cut short when it is long. -/
def shownValue (text : Text) : Text :=
  utf8 " `" ++ (if 10 < text.length then text.take 7 ++ utf8 "..." else text) ++ utf8 "`"

/-- The wording of a misfit. -/
def Misfit.message : Misfit → Text
  | .wrongType line tag shown wanted =>
    utf8 "line " ++ Text.ofNat line ++ utf8 ": cannot unmarshal " ++ utf8 tag ++
      ((shown.map shownValue).getD []) ++ utf8 " into " ++ utf8 wanted
  | .unknownField line key =>
    utf8 "line " ++ Text.ofNat line ++ utf8 ": field " ++ key ++
      utf8 " not found in type config.Config"
  | .repeatedKey key first second =>
    utf8 "line " ++ Text.ofNat second ++ utf8 ": mapping key " ++ Text.quoted key ++
      utf8 " already defined at line " ++ Text.ofNat first
  | .unknownForm line => utf8 "line " ++ Text.ofNat line ++ utf8 ": form not supported"

/-- The misfit of a content. -/
def Content.misfit (line : Nat) (wanted : String) : Content → Misfit
  | .scalar text quoted => .wrongType line (Meaning.ofScalar text quoted).tag (some text) wanted
  | .sequence => .wrongType line "!!seq" none wanted
  | .mapping => .wrongType line "!!map" none wanted

/-- The text of a string field: that of any single value but null, which leaves the field. -/
def Content.textOr (current : Text) : Content → Option Text
  | .scalar text quoted =>
    match Meaning.ofScalar text quoted with
    | .null => some current
    | _ => some text
  | _ => none

/-- The value of an integer field. -/
def Content.intOr (current : Int) : Content → Option Int
  | .scalar text quoted =>
    match Meaning.ofScalar text quoted with
    | .null => some current
    | meaning => meaning.int?
  | _ => none

/-- The value of a truth field. -/
def Content.boolOr (current : Bool) : Content → Option Bool
  | .scalar text quoted =>
    match Meaning.ofScalar text quoted with
    | .null => some current
    | meaning => meaning.bool?
  | _ => none

/-- Settings with one entry taken in, or what is wrong with the entry. An entry whose key is null
says nothing. -/
def withEntry (settings : Settings) (entry : Entry) : Except Misfit Settings :=
  let fitted {α : Type} (wanted : String) (value : Option α) (change : α → Settings) :
      Except Misfit Settings :=
    match value with
    | some value => .ok (change value)
    | none => .error (entry.content.misfit entry.line wanted)
  if !entry.quotedKey && nullWords.contains entry.key then .ok settings
  else if entry.key = utf8 "prompt" then
    fitted "string" (entry.content.textOr settings.prompt) fun value =>
      { settings with prompt := value }
  else if entry.key = utf8 "exit_command" then
    fitted "string" (entry.content.textOr settings.exitCommand) fun value =>
      { settings with exitCommand := value }
  else if entry.key = utf8 "history_file" then
    fitted "string" (entry.content.textOr settings.historyFile) fun value =>
      { settings with historyFile := value }
  else if entry.key = utf8 "gas_limit" then
    fitted "int" (entry.content.intOr settings.gasLimit) fun value =>
      { settings with gasLimit := value }
  else if entry.key = utf8 "max_depth" then
    fitted "int" (entry.content.intOr settings.maxDepth) fun value =>
      { settings with maxDepth := value }
  else if entry.key = utf8 "color" then
    fitted "bool" (entry.content.boolOr settings.color) fun value =>
      { settings with color := value }
  else .error (.unknownField entry.line entry.key)

/-- Settings with entries taken in, and the misfits in order. -/
def withEntries (settings : Settings) : List Entry → Settings × List Misfit
  | [] => (settings, [])
  | entry :: rest =>
    match withEntry settings entry with
    | .ok changed => withEntries changed rest
    | .error misfit =>
      let (changed, misfits) := withEntries settings rest
      (changed, misfit :: misfits)

/-- The keys that occur again, each with every later line, in order of their first lines. -/
def repeatedKeys : List Entry → List Misfit
  | [] => []
  | entry :: rest =>
    (rest.filter (·.key == entry.key)).map
        (fun later => Misfit.repeatedKey entry.key entry.line later.line) ++
      repeatedKeys rest

/-- Settings changed by a document, and what is wrong with the document. -/
def Document.apply (document : Document) (settings : Settings) : Settings × List Misfit :=
  match document with
  | .empty | .single _ .mapping => (settings, [])
  | .single line content =>
    match content with
    | .scalar text quoted =>
      match Meaning.ofScalar text quoted with
      | .null => (settings, [])
      | _ => (settings, [content.misfit line "config.Config"])
    | _ => (settings, [content.misfit line "config.Config"])
  | .unknown line => (settings, [.unknownForm line])
  | .entries listed =>
    match repeatedKeys listed with
    | [] => withEntries settings listed
    | misfits => (settings, misfits)

/-- The report of misfits. -/
def misfitReport (misfits : List Misfit) : Text :=
  utf8 "yaml: unmarshal errors:" ++ misfits.flatMap fun misfit => utf8 "\n  " ++ misfit.message

/-- The decoder of the program. -/
def decode : Settings.Decoder
  | .error report, settings => (settings, some (.refused (utf8 "yaml: input error: " ++ report)))
  | .ok source, settings =>
    match Document.ofText source with
    | .empty => (settings, some .endOfInput)
    | document =>
      match document.apply settings with
      | (changed, []) => (changed, none)
      | (changed, misfits) => (changed, some (.refused (misfitReport misfits)))

end Lengua.Console
