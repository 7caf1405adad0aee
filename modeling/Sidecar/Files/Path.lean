/-!
# Paths

A path is a text in which slashes separate names. It is absolute when it begins with a slash. An
empty name and a dot name nothing, so that the parts of a path are its other names; two dots are a
part, since what they name depends on the directory.
-/

namespace Sidecar.Path

/-- The names between slashes, empty ones included. -/
def names (path : String) : List String := path.splitOn "/"

/-- Whether a path begins at the root. -/
def isAbsolute (path : String) : Bool := path.startsWith "/"

/-- The names that name something. -/
def parts (path : String) : List String := (names path).filter fun n ↦ n != "" && n != "."

/-- The number of parts; the root counts, and so does a dot that begins a relative path. -/
def count (path : String) : Nat :=
  (parts path).length +
    if isAbsolute path then 1 else if (names path).head? = some "." then 1 else 0

/-- A path taken relative to a directory. -/
def join (dir path : String) : String :=
  if isAbsolute path then path
  else if dir = "" ∨ dir.endsWith "/" then dir ++ path
  else dir ++ "/" ++ path

/-- An absolute path as it is; the parts of another one under a directory. -/
def absolute (dir path : String) : String :=
  if isAbsolute path then path else (parts path).foldl join dir

/-- The part of a name after its last dot, if something stands before that. -/
def extension? (path : String) : Option String :=
  match (parts path).getLast? with
  | none => none
  | some name =>
    match (name.splitOn ".").reverse with
    | last :: before :: rest => if rest = [] ∧ before = "" then none else some last
    | _ => none

end Sidecar.Path
