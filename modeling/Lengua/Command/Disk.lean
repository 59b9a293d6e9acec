import Lengua.Path

/-!
# Files

Why a file cannot be read, and a small disk: a tree of directories with files in it, in
which relative paths are followed name by name from the top.
-/

namespace Lengua

/-- Why a file cannot be read. -/
inductive ReadFault where
  /-- There is nothing at the path. -/
  | missing
  /-- A name inside the path is no directory. -/
  | notDirectory
  /-- The path leads to a directory. -/
  | isDirectory

/-- The report of a fault at a path. -/
def ReadFault.message (fault : ReadFault) (path : Text) : Text :=
  match fault with
  | .missing => utf8 "open " ++ path ++ utf8 ": no such file or directory"
  | .notDirectory => utf8 "open " ++ path ++ utf8 ": not a directory"
  | .isDirectory => utf8 "read " ++ path ++ utf8 ": is a directory"

/-- A tree of directories and files, each by the names that lead to it from the top. -/
structure Disk where
  /-- The directories below the top. -/
  directories : List (List Text)
  /-- The files and their contents. -/
  files : List (List Text × Text)

namespace Disk

/-- What stands at a place. -/
inductive Place where
  /-- Nothing. -/
  | nothing
  /-- A directory. -/
  | directory
  /-- A file with its content. -/
  | file (content : Text)

/-- What stands where some names lead. -/
def at? (disk : Disk) (names : List Text) : Place :=
  match disk.files.lookup names with
  | some content => .file content
  | none => if names.isEmpty || disk.directories.contains names then .directory else .nothing

/-- Follows the parts of a path from a place reached by some names. Any further part needs a
directory to stand in. -/
def walk (disk : Disk) (names : List Text) : List Text → Except ReadFault (List Text)
  | [] => .ok names
  | part :: rest =>
    match disk.at? names with
    | .nothing => .error .missing
    | .file _ => .error .notDirectory
    | .directory =>
      if part.isEmpty || part = utf8 "." then disk.walk names rest
      else if part = utf8 ".." then disk.walk names.dropLast rest
      else disk.walk (names ++ [part]) rest

/-- Follows a relative path from the top. -/
def resolve (disk : Disk) (path : Text) : Except ReadFault (List Text) :=
  if path.isEmpty || Path.isAbsolute path then .error .missing
  else disk.walk [] (Text.splitOn Path.slash path)

/-- The content of the file at a path. -/
def read (disk : Disk) (path : Text) : Except ReadFault Text :=
  match disk.resolve path with
  | .error fault => .error fault
  | .ok names =>
    match disk.at? names with
    | .nothing => .error .missing
    | .directory => .error .isDirectory
    | .file content => .ok content

/-- The directories that lead to a place. -/
def parents (names : List Text) : List (List Text) :=
  (List.range names.length).map fun count => names.take count

/-- Adds a file or, for a name that ends with a slash, a directory, and the directories that
lead to it. -/
def add (disk : Disk) (name content : Text) : Disk :=
  let names := Path.names name
  let leading := disk.directories ++ parents names
  if name.getLast? == some Path.slash then { disk with directories := leading ++ [names] }
  else ⟨leading, disk.files ++ [(names, content)]⟩

/-- The names at which a file could be written: no directory, in a directory that is there. -/
def target? (disk : Disk) (path : Text) : Option (List Text) :=
  match disk.resolve path with
  | .error _ => none
  | .ok names =>
    match disk.at? names, disk.at? names.dropLast with
    | .directory, _ => none
    | _, .directory => some names
    | _, _ => none

end Disk

end Lengua
