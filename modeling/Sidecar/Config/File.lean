import Sidecar.Config.Json
import Sidecar.Config.Toml
import Sidecar.Files.Tree

/-!
# Configuration files

A configuration file is read whole, and the extension of its name decides its format. What is wrong
with the file or with the configuration in it is reported under the name of the file.
-/

namespace Sidecar.Config

/-- Reports what is wrong with a configuration under the name of its file. -/
def inFile (path : String) : Failure → Failure
  | .config text => .configFile path text
  | failure => failure

/-- The configuration in the file that a path names, seen from a directory. -/
def ofFile (files : FileTree) (dir path : String) : Except Failure Config :=
  match files.readText dir path with
  | .error fault => .error (.configFile path fault.text)
  | .ok source =>
    match Path.extension? path with
    | some "toml" => (ofToml source).mapError (inFile path)
    | some "json" => (ofJson source).mapError (inFile path)
    | _ =>
      .error (.configFile path "unsupported config format (expected .toml or .json)")

end Sidecar.Config
