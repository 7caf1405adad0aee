import Sidecar.Shell.Parser
import Sidecar.World.Kernel
import Sidecar.World.Operand

/-!
# Loading programs

What a path names is loaded as one of the system's programs, or through the interpreter on its
first line. A program begins with its arguments and with the variables of its environment.
-/

namespace Sidecar.World

open Shell (Text Command Context Variables)

/-- Why a program cannot be loaded. -/
inductive LoadFault where
  | path (fault : FileTree.PathFault)
  | denied
  /-- It is no program and names no interpreter. -/
  | notProgram

/-- The error as it is reported. -/
def LoadFault.toIoFault : LoadFault → IoFault
  | .path fault => fault.toIoFault
  | .denied => .ofSystem .permissionDenied "Permission denied" 13
  | .notProgram => .ofSystem .uncategorized "Exec format error" 8

/-- A message of a program about itself. -/
def complaint (program text : String) : Bytes := Bytes.ofString (program ++ ": " ++ text ++ "\n")

/-- What a program begins with: its directory, its environment and its arguments. -/
structure Invocation where
  dir : String
  environment : Variables
  arguments : List Text

namespace Invocation

/-- The arguments that are no options. -/
def operands (i : Invocation) : List Text := i.arguments.filter fun a ↦ !isOption a

/-- A program that complains about its arguments and fails. -/
def refuse (tool : Tool) (text : String) : Task :=
  .print (complaint tool.name text ++
    Bytes.ofString s!"Try '{tool.name} --help' for more information.\n") 1

/-- The beginning of a copy. -/
def copy (i : Invocation) : Task :=
  let arguments := i.arguments.filter fun a ↦ a ≠ ['-', 'u']
  match arguments.find? isOption with
  | some a => refuse .cat s!"invalid option -- '{stringOfText (a.drop 1)}'"
  | none => .copy [] (if arguments = [] then [['-']] else arguments) 0

/-- The beginning of a recoding. -/
def recode (i : Invocation) : Task :=
  match recoding? i.arguments with
  | some f => .recode [] [] f false
  | none => refuse .tr "missing operand"

/-- The beginning of a sleep at a moment. -/
def sleep (i : Invocation) (clock : Nat) : Task :=
  match i.arguments.mapM sleepTime? with
  | none => refuse .sleep "invalid time interval"
  | some [] => refuse .sleep "missing operand"
  | some times =>
    match times.mapM id with
    | none => .sleep none
    | some times => .sleep (some (times.foldl (· + ·) clock))

/-- The context in which a script begins. -/
def context (i : Invocation) (name : Text) (arguments : List Text) : Context where
  name
  arguments
  bindings := i.environment.set "IFS".toList [' ', '\t', '\n']
  status := 0
  pid := 0
  lastBackground := none

/-- A script that is about to do something. -/
def machine (i : Invocation) (name : Text) (arguments : List Text) (activity : Activity)
    (replacesLast : Bool) : Task :=
  .script ⟨i.context name arguments, .empty, i.environment.keys, [], activity, replacesLast⟩

/-- A script that begins. -/
def script (i : Invocation) (name : Text) (arguments : List Text) (script : Text)
    (replacesLast : Bool) : Task :=
  i.machine name arguments
    (match Command.ofScript? script with
      | some c => .run c
      | none => .exit (complaint (stringOfText name) "1: Syntax error") 2) replacesLast

/-- The beginning of a shell: a script from its arguments, from a file, or from its input. -/
def shell (i : Invocation) (files : FileTree) : Task :=
  let operands := i.arguments.dropWhile isOption
  if (i.arguments.takeWhile isOption).any (·.contains 'c') then
    match operands with
    | [] => .print (complaint "sh" "0: -c requires an argument") 2
    | script :: rest => i.script (rest.headD ['s', 'h']) (rest.drop 1) script true
  else
    match operands with
    | [] => i.machine ['s', 'h'] [] (.readScript []) false
    | file :: rest =>
      match files.read i.dir (stringOfText file) with
      | .ok data => i.script file rest (textOfBytes data) false
      | .error _ =>
        .print (complaint "sh" s!"0: cannot open {stringOfText file}: No such file") 2

/-- A move of a file, which is done at once. -/
def move (i : Invocation) (files : FileTree) : Task × FileTree :=
  match i.operands.map stringOfText with
  | [source, target] =>
    match files.walk i.dir source, files.target? i.dir target with
    | .ok place, some aim =>
      let aim := if files.get? aim = some .directory then aim ++ place.getLast?.toList else aim
      (.print [] 0, files.move place aim)
    | .error _, _ =>
      (.print (complaint "mv" s!"cannot stat '{source}': No such file or directory") 1, files)
    | .ok _, none =>
      let text := s!"cannot move '{source}' to '{target}': No such file or directory"
      (.print (complaint "mv" text) 1, files)
  | _ => (refuse .mv "missing file operand", files)

end Invocation

/-- A program of the system at its beginning. -/
def begin (w : World) (tool : Tool) (i : Invocation) : Task × World :=
  match tool with
  | .cat => (i.copy, w)
  | .tr => (i.recode, w)
  | .sleep => (i.sleep w.clock, w)
  | .sh => (i.shell w.files, w)
  | .mv =>
    let (task, files) := i.move w.files
    (task, { w with files })

/-- The interpreter on the first line of a file, with an argument for it if there is one. -/
def interpreter? (data : Bytes) : Option (Text × Option Text) :=
  match textOfBytes (data.take 256) with
  | '#' :: '!' :: cs =>
    let isBlank (c : Char) : Bool := c = ' ' || c = '\t'
    let trim (s : Text) : Text := ((s.dropWhile isBlank).reverse.dropWhile isBlank).reverse
    let line := trim (cs.takeWhile (· ≠ '\n'))
    let path := line.takeWhile (!isBlank ·)
    let argument := trim (line.dropWhile (!isBlank ·))
    if path = [] then none else some (path, if argument = [] then none else some argument)
  | _ => none

/-- Loads the program that a path names. A file names its interpreter, which is loaded in its
place; the number bounds how often. -/
def load : Nat → World → String → Invocation → Except LoadFault (Task × World)
  | 0, _, _, _ => .error .notProgram
  | fuel + 1, w, path, i =>
    match w.files.walk i.dir path with
    | .error fault => .error (.path fault)
    | .ok place =>
      match w.files.get? place with
      | some (.tool tool) => .ok (w.begin tool i)
      | some (.file data true) =>
        match interpreter? data with
        | none => .error .notProgram
        | some (interpreter, argument) =>
          load fuel w (stringOfText interpreter)
            { i with arguments := argument.toList ++ textOfString path :: i.arguments }
      | some _ => .error .denied
      | none => .error (.path .missing)

/-- How many interpreters may follow on each other. -/
def interpreterDepth : Nat := 6

/-- The standard streams of a process on the side of the one who spawned it. -/
structure Streams where
  input : PipeId
  output : PipeId
  errors : PipeId
  deriving DecidableEq, Repr

/-- Who spawns processes from outside; no process of the world has this number. -/
def outside : Pid := 0

/-- The environment of a process that is spawned from outside. -/
def outsideEnvironment (w : World) : Variables :=
  Table.empty.set "PATH".toList (textOfString w.searchPath)

/-- Starts a process from outside, with pipes to its standard streams. -/
def spawn (w : World) (dir path : String) (arguments : List String) :
    Except IoFault (Pid × Streams × World) :=
  if arguments.any (·.contains '\x00') then
    .error ⟨.invalidInput, "nul byte found in provided data"⟩
  else
    match load interpreterDepth w path
        ⟨dir, w.outsideEnvironment, arguments.map textOfString⟩ with
    | .error fault => .error fault.toIoFault
    | .ok (task, w) =>
      let (input, w) := w.makePipe
      let (output, w) := w.makePipe
      let (errors, w) := w.makePipe
      let descriptors : Descriptors :=
        ((Table.empty.set 0 (.pipeReader input)).set 1 (.pipeWriter output)).set 2
          (.pipeWriter errors)
      let (pid, w) := w.add ⟨descriptors, dir, task, some outside, none⟩
      .ok (pid, ⟨input, output, errors⟩,
        { w with
          outsideWriters := input :: w.outsideWriters
          outsideReaders := output :: errors :: w.outsideReaders })

end Sidecar.World
