import Lengua.Text

/-!
# File paths

Paths with the slash as separator, resolved by their text alone: a dot stands for the
directory it is in, two dots cancel the name before them, and repeated slashes count
once. Above the root there is nothing, so two dots at the start of an absolute path
vanish; at the start of a relative one they stay.
-/

namespace Lengua.Path

/-- The separator of names in a path. -/
def slash : UInt8 := 0x2F

/-- Whether a path starts at the root. -/
def isAbsolute (path : Text) : Bool := path.head? == some slash

/-- The names of a path in order, without empty ones and dots. -/
def names (path : Text) : List Text :=
  (Text.splitOn slash path).filter fun name => !name.isEmpty && name != utf8 "."

/-- Resolves two dots against the names before them, which come latest first. -/
def resolveFrom (rooted : Bool) (before : List Text) : List Text → List Text
  | [] => before.reverse
  | name :: rest =>
    if name = utf8 ".." then
      match before with
      | [] => resolveFrom rooted (if rooted then [] else [name]) rest
      | last :: earlier =>
        if last = utf8 ".." then resolveFrom rooted (name :: before) rest
        else resolveFrom rooted earlier rest
    else resolveFrom rooted (name :: before) rest

/-- The shortest path with the same meaning. -/
def clean (path : Text) : Text :=
  let resolved := Text.joined [slash] (resolveFrom (isAbsolute path) [] (names path))
  if isAbsolute path then slash :: resolved
  else if resolved.isEmpty then utf8 "." else resolved

/-- A path continued by another. Empty paths add nothing, and two of them give the empty one. -/
def join (first second : Text) : Text :=
  if first.isEmpty && second.isEmpty then []
  else if first.isEmpty then clean second
  else if second.isEmpty then clean first
  else clean (first ++ slash :: second)

end Lengua.Path
