import Sidecar.Config
import Sidecar.Files.Tree

/-!
# Locating the command

A command with more than one part is a path of its own; any other is looked for in the directories
of the search path, in their order. The first file that may be executed is the one. Where there is
none, the reason depends on whether a file that may not be executed was met.
-/

namespace Sidecar

/-- What a command is looked up in. -/
structure Environment where
  files : FileTree
  /-- The current directory. -/
  dir : String
  /-- The directories to search, with colons between them, if there are any. -/
  searchPath : Option String

namespace Environment

/-- The directories to search, in order. -/
def searchDirs? (env : Environment) : Option (List String) := env.searchPath.map (·.splitOn ":")

/-- The paths that a command may mean, in order. -/
def candidates (env : Environment) (name : String) : List String :=
  if 1 < Path.count name then [name]
  else (env.searchDirs?.getD []).map fun dir ↦ Path.join dir name

/-- The first file that may be executed. -/
def findExecutable? (env : Environment) (name : String) : Option String :=
  (env.candidates name).find? (env.files.isExecutable env.dir)

/-- The first file, whether it may be executed or not. -/
def findFile? (env : Environment) (name : String) : Option String :=
  if 1 < Path.count name then
    if env.files.isFile env.dir name then some name else none
  else
    match env.searchDirs? with
    | none => none
    | some dirs =>
      (dirs.map fun dir ↦ Path.join dir name).find? (env.files.isFile env.dir)

end Environment

/-- Locates the command of a configuration; the path found is absolute. -/
def Config.resolveProgram (c : Config) (env : Environment) : Except Failure String :=
  match env.findExecutable? c.name with
  | some path => .ok (Path.absolute env.dir path)
  | none =>
    let kind := if (env.findFile? c.name).isSome then IoKind.permissionDenied else .notFound
    let text :=
      if 1 < Path.count c.name ∨ env.searchPath.isSome then "cannot find binary path"
      else "no path to search and provided name is not an absolute path"
    .error (.spawn c.commandLine ⟨kind, text⟩)

end Sidecar
