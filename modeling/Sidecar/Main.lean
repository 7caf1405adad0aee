import Sidecar.CommandLine.Run

/-!
# The program

Reads what a command line names, runs the command, writes its output, and ends with its code.
Children are the system's programs and scripts, and run in a world that holds nothing else.
-/

namespace Sidecar.Program

open CommandLine (Command)

/-- The files whose contents a command needs. -/
def filesOf : Command → List String
  | .run options => options.config.toList ++ options.input.toList
  | .check config _ => [config]
  | _ => []

/-- Whether a command reads its standard input. -/
def readsInput : Command → Bool
  | .run options => options.input.isNone
  | _ => false

/-- Puts the file that a path names into a tree, if there is one. -/
def addFile (dir : String) (files : FileTree) (path : String) : IO FileTree := do
  let place := Path.parts (Path.join dir path)
  try
    let data ← IO.FS.readBinFile path
    return files.putFile place data.data.toList false
  catch _ =>
    return files

/-- Reads a stream up to its end. -/
partial def readAll (stream : IO.FS.Stream) (soFar : ByteArray) : IO ByteArray := do
  let more ← stream.read 65536
  if more.isEmpty then return soFar else readAll stream (soFar ++ more)

/-- Runs a command line. -/
def run (arguments : List String) : IO UInt32 := do
  let dir := (← IO.currentDir).toString
  let searchPath ← IO.getEnv "PATH"
  let command := Command.ofArguments? arguments
  let names := (command.map filesOf).getD []
  let files ← names.foldlM (addFile dir) (FileTree.system.putDirectories (Path.parts dir))
  let input ← if (command.map readsInput).getD false then readAll (← IO.getStdin) .empty
    else pure .empty
  let result := CommandLine.execute arguments ⟨files, dir, searchPath⟩ input.data.toList
  let output ← IO.getStdout
  output.write ⟨result.output.toArray⟩
  output.flush
  (← IO.getStderr).putStr result.errors
  return UInt32.ofNat result.code

end Sidecar.Program

/-- Runs the command line of the process. -/
def main (arguments : List String) : IO UInt32 := Sidecar.Program.run arguments
