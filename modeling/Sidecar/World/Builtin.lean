import Sidecar.World.Condition
import Sidecar.World.Turn

/-!
# Commands of the shell itself

What the commands do that a script runs without starting a program. The special ones keep the
assignments that stand before them, and a redirection of theirs that fails ends the script.
-/

namespace Sidecar.World

open Shell (Text Command)

/-- A command of the shell itself. -/
inductive Builtin where
  /-- Does nothing and succeeds or fails. -/
  | idle (succeeds : Bool)
  | echo
  | printf
  | read
  /-- Evaluates a condition; whether it ends with a bracket. -/
  | test (bracket : Bool)
  /-- Leaves loops or goes on with their next round. -/
  | interrupt (continues : Bool)
  | leaveFunction
  | leaveScript
  | shift
  | setArguments
  | unset
  /-- Sets variables, and exports them. -/
  | declare (exports : Bool)
  /-- Sets variables until a function ends. -/
  | localize
  | changeDirectory
  | showDirectory
  /-- Runs its arguments as a script. -/
  | evaluate
  /-- Runs a file as a script. -/
  | runFile
  | wait
  | kill
  /-- Says what a name stands for. -/
  | locate
  /-- Changes descriptors for good. -/
  | adopt
  deriving DecidableEq

namespace Builtin

/-- The special commands by their names. -/
def special? (name : String) : Option Builtin :=
  match name with
  | ":" => some (.idle true)
  | "." => some .runFile
  | "break" => some (.interrupt false)
  | "continue" => some (.interrupt true)
  | "eval" => some .evaluate
  | "exec" => some .adopt
  | "exit" => some .leaveScript
  | "export" => some (.declare true)
  | "readonly" => some (.declare false)
  | "return" => some .leaveFunction
  | "set" => some .setArguments
  | "shift" => some .shift
  | "times" => some (.idle true)
  | "trap" => some (.idle true)
  | "unset" => some .unset
  | _ => none

/-- The other commands by their names. -/
def ordinary? (name : String) : Option Builtin :=
  match name with
  | "true" => some (.idle true)
  | "false" => some (.idle false)
  | "echo" => some .echo
  | "printf" => some .printf
  | "read" => some .read
  | "test" => some (.test false)
  | "[" => some (.test true)
  | "local" => some .localize
  | "cd" => some .changeDirectory
  | "pwd" => some .showDirectory
  | "wait" => some .wait
  | "kill" => some .kill
  | "command" => some .locate
  | "alias" => some (.idle true)
  | "hash" => some (.idle true)
  | "umask" => some (.idle true)
  | _ => none

end Builtin

namespace Turn

/-- The number that an argument denotes. -/
def natArgument? (a : Text) : Option Nat :=
  if a ≠ [] ∧ a.all Char.isDigit then some (a.foldl (fun n d ↦ 10 * n + Shell.digitOf d) 0)
  else none

/-- Goes on with the number that the first argument denotes, or with another one if there is no
argument. -/
def withNumber (t : Turn) (line : Nat) (name : String) (arguments : List Text) (otherwise : Nat)
    (f : Nat → Turn) : Turn :=
  match arguments with
  | [] => f otherwise
  | a :: _ =>
    match natArgument? a with
    | some n => f n
    | none => t.leave (t.complaint line (s!"{name}: Illegal number: ".toList ++ a)) 2

/-- Writes the output of a command. -/
def output (t : Turn) (line : Nat) (name : String) (text : Text) (status : Nat) : Turn :=
  t.become (.write (bytesOfText text) status (t.complaint line s!"{name}: I/O error".toList))

/-- An assignment as an argument: the name, and the value if there is one. -/
def assignment (a : Text) : Text × Option Text :=
  match a.dropWhile (· ≠ '=') with
  | [] => (a, none)
  | _ :: value => (a.takeWhile (· ≠ '='), some value)

/-- Sets a variable to the value of an assignment, if it has one. -/
def assign (t : Turn) (a : Text) : Turn :=
  match assignment a with
  | (_, none) => t
  | (name, value) => t.setVariable name value

/-- Sets variables and puts back what they were when the present function ends. -/
def localizeAll (t : Turn) (arguments : List Text) : Turn :=
  let saved := arguments.map fun a ↦
    let name := (assignment a).1
    (name, t.context.bindings.get? name)
  let frames := t.machine.frames
  let inner := frames.takeWhile fun f ↦ !isCall f
  let t := t.setFrames (inner ++ .bindings saved :: frames.drop inner.length)
  arguments.foldl assign t

/-- Runs a text as a part of the script. -/
def runText (t : Turn) (line : Nat) (script : Text) : Turn :=
  match Command.ofScript? script with
  | some c => t.run c
  | none => t.leave (t.complaint line "Syntax error".toList) 2

/-- The numbers of signals by their names. -/
def signalNumber? (s : Text) : Option Nat :=
  let name := String.ofList (if s.take 3 = "SIG".toList then s.drop 3 else s)
  match name with
  | "HUP" => some 1
  | "INT" => some 2
  | "QUIT" => some 3
  | "KILL" => some 9
  | "PIPE" => some 13
  | "ALRM" => some 14
  | "TERM" => some 15
  | _ => natArgument? s

/-- Sends a signal to processes. -/
def signalAll (line signal : Nat) : List Text → Turn → Turn
  | [], t => t
  | a :: rest, t =>
    match (natArgument? a).bind fun pid ↦ (t.world.processes.get? pid).map fun _ ↦ pid with
    | some pid =>
      let world := if signal = 0 then t.world else t.world.kill pid signal
      signalAll line signal rest { t with world }
    | none => signalAll line signal rest (t.fail line "kill: No such process".toList 1)

/-- The path of a program that a script names, or the text and status of not finding it. -/
def findProgram (t : Turn) (name : Text) : Except (String × Nat) String :=
  let files := t.world.files
  if name.contains '/' then .ok (stringOfText name)
  else
    let path := (t.context.bindings.get? "PATH".toList).getD []
    let candidates := (path.splitOn ':').map fun d ↦
      stringOfText (if d = [] then name else d ++ '/' :: name)
    match candidates.find? fun c ↦ files.isExecutable t.dir c with
    | some c => .ok c
    | none =>
      if candidates.any fun c ↦ files.isFile t.dir c then .error ("Permission denied", 126)
      else .error ("not found", 127)

/-- What a name stands for: itself, if no program is started for it, or the path of a program. -/
def locate? (t : Turn) (name : Text) : Option Text :=
  let shown := stringOfText name
  if (Builtin.special? shown).isSome ∨ (Builtin.ordinary? shown).isSome ∨
      (t.machine.functions.get? name).isSome then some name
  else
    match t.findProgram name with
    | .ok path => if t.world.files.isExecutable t.dir path then some (textOfString path) else none
    | .error _ => none

/-- The default signal of a kill. -/
def sigterm : Nat := 15

/-- Runs a command of the shell. -/
def builtin (t : Turn) (line : Nat) (b : Builtin) (name : String) (arguments : List Text) : Turn :=
  match b with
  | .idle succeeds => t.finish (if succeeds then 0 else 1)
  | .echo => t.output line name (Shell.echo arguments) 0
  | .printf =>
    match arguments with
    | [] => t.fail line "printf: usage: printf format [arg ...]".toList 2
    | format :: arguments =>
      let (text, messages, status) := Shell.Printf.format format arguments
      let t := messages.foldl (fun t m ↦ t.say line ("printf: ".toList ++ m.toList)) t
      t.output line name text status
  | .read =>
    let options := arguments.takeWhile isOption
    let names := arguments.dropWhile isOption
    if names = [] then t.fail line "read: arg count".toList 2
    else t.become (.readLine (options.any (·.contains 'r')) names [] false)
  | .test bracket =>
    let judge (arguments : List Text) : Turn :=
      match condition t.world.files t.dir arguments with
      | .ok value => t.finish (if value then 0 else 1)
      | .error text => t.fail line (s!"{name}: ".toList ++ text.toList) 2
    if bracket then
      if arguments.getLast? = some [']'] then judge arguments.dropLast
      else t.fail line "[: missing ]".toList 2
    else judge arguments
  | .interrupt continues =>
    t.withNumber line name arguments 1 fun n ↦ t.interruptLoops continues n
  | .leaveFunction => t.withNumber line name arguments t.context.status (t.leaveFunction <| · % 256)
  | .leaveScript => t.withNumber line name arguments t.context.status (t.leave [] <| · % 256)
  | .shift =>
    t.withNumber line name arguments 1 fun n ↦
      if t.context.arguments.length < n then
        t.leave (t.complaint line "shift: can't shift that many".toList) 2
      else
        (t.setContext { t.context with arguments := t.context.arguments.drop n }).finish 0
  | .setArguments =>
    let isFlag (a : Text) : Bool := (a.head? = some '-' || a.head? = some '+') && a ≠ ['-', '-']
    match arguments.dropWhile isFlag with
    | [] => t.finish 0
    | a :: rest =>
      let values := if a = ['-', '-'] then rest else a :: rest
      (t.setContext { t.context with arguments := values }).finish 0
  | .unset =>
    let names := arguments.dropWhile isOption
    if arguments.head? = some ['-', 'f'] then
      let functions := names.foldl (fun fs n ↦ fs.erase n) t.machine.functions
      { t with machine := { t.machine with functions } }.finish 0
    else (names.foldl (fun t n ↦ t.setVariable n none) t).finish 0
  | .declare exports =>
    let t := arguments.foldl assign t
    let names := if exports then arguments.map fun a ↦ (assignment a).1 else []
    { t with machine := { t.machine with exported := names ++ t.machine.exported } }.finish 0
  | .localize => (t.localizeAll arguments).finish 0
  | .changeDirectory =>
    let path := match arguments with
      | [] => (t.context.bindings.get? "HOME".toList).getD ['/']
      | a :: _ => a
    match t.world.files.walk t.dir (stringOfText path) with
    | .ok place =>
      if t.world.files.get? place = some .directory then
        let dir := "/" ++ "/".intercalate place
        { t with world := t.world.modify t.pid ({ · with dir }) }.finish 0
      else t.fail line ("cd: can't cd to ".toList ++ path) 2
    | .error _ => t.fail line ("cd: can't cd to ".toList ++ path) 2
  | .showDirectory => t.output line name (textOfString t.dir ++ ['\n']) 0
  | .evaluate => t.runText line (List.intercalate [' '] arguments)
  | .runFile =>
    match arguments with
    | [] => t.leave (t.complaint line ".: filename argument required".toList) 2
    | path :: _ =>
      match t.world.files.read t.dir (stringOfText path) with
      | .ok data => t.runText line (textOfBytes data)
      | .error _ =>
        let text := ".: cannot open ".toList ++ path ++ ": No such file".toList
        t.leave (t.complaint line text) 2
  | .wait =>
    match arguments with
    | [] => t.become (.await t.offspring (some 0))
    | arguments => t.become (.await (arguments.filterMap natArgument?) none)
  | .kill =>
    let (signal, pids) := match arguments with
      | ['-', 's'] :: s :: rest => ((signalNumber? s).getD sigterm, rest)
      | ('-' :: s) :: rest => ((signalNumber? s).getD sigterm, rest)
      | rest => (sigterm, rest)
    signalAll line signal pids (t.finish 0)
  | .locate =>
    match (arguments.dropWhile isOption).head?.bind t.locate? with
    | some text => t.output line name (text ++ ['\n']) 0
    | none => t.finish 127
  | .adopt => t.finish 0

end Turn
end Sidecar.World
