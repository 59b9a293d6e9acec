import Lengua.Settings

/-!
# Settings from a document

A decoder changes the default settings by what a document says. How documents are written
and read is the matter of the decoder. The settings it leaves are checked as a whole, also
when there was no document in what it was given.
-/

namespace Lengua

namespace Settings

/-- Why a decoder stops. -/
inductive DecodeFault where
  /-- There is no document. -/
  | endOfInput
  /-- The document is refused, with a report. -/
  | refused (report : Text)

/-- A decoder of documents. It is given the text of a document, or the report of why the text
cannot be read, and it changes settings until it is done or stops. -/
abbrev Decoder : Type := Except Text Text → Settings → Settings × Option DecodeFault

end Settings

/-- Why there are no settings. -/
inductive SettingsError where
  /-- The document is refused. -/
  | unreadable (report : Text)
  /-- The settings are wrong. -/
  | invalid (issues : List SettingsIssue)

/-- The wording of an error. -/
def SettingsError.message : SettingsError → Text
  | .unreadable report => utf8 "config: parse: " ++ report
  | .invalid issues =>
    utf8 "config: invalid configuration: " ++
      Text.joined (utf8 "; ") (issues.map SettingsIssue.message)

namespace Settings

/-- The settings themselves, if nothing is wrong with them. -/
def checked (settings : Settings) : Except SettingsError Settings :=
  match settings.issues with
  | [] => .ok settings
  | issues => .error (.invalid issues)

/-- The settings that a decoder reads from a document. -/
def ofDocument (decode : Decoder) (document : Except Text Text) : Except SettingsError Settings :=
  match decode document default with
  | (settings, none) | (settings, some .endOfInput) => settings.checked
  | (_, some (.refused report)) => .error (.unreadable report)

end Settings

end Lengua
