import Lengua.Console.History
import Lengua.Session.Dialogue
import Lengua.Text.Category

/-!
# The line editor of the program

Lines come from a text, one after another, and each prompt is written before its line. A
prompt that holds a character of the category Other cannot be shown, and then no line is
read.

Everything else is said of any line editor; this one only has to serve the program.
-/

namespace Lengua.Console

/-- Whether a prompt can be shown. -/
def isShowable (prompt : Text) : Bool :=
  prompt.pieces.all fun
    | .char value => !Text.isOther value
    | .stray _ => true

/-- The answer to a prompt that cannot be shown. -/
def unshowable : Prompted := .failed (utf8 "invalid prompt")

/-- The line editor over the lines of an input. -/
def lineEditor (input : Text) : Editor where
  Memory := History
  blank := .empty
  restore := History.restore
  remember := History.add
  store := History.render
  answers prompt :=
    if isShowable prompt then
      input.lines.map (fun read => (prompt, .line read.line)) ++ [(prompt, .ended)]
    else [([], unshowable)]

end Lengua.Console
