import Sidecar.Files.Tree
import Sidecar.Shell.Expansion

/-!
# Processes

A world of processes that read and write pipes and files. A process is one of the system's
programs at some point of its work; a script in the command language is a machine with a stack of
what is still to be done. Processes take no time, except that a sleep ends at its moment and that a
process that is killed gives back its memory before it can be waited for.
-/

namespace Sidecar.World

open Shell (Text Word Command Context)

/-- The number of a process. -/
abbrev Pid := Nat

/-- The number of a pipe. -/
abbrev PipeId := Nat

/-- What a descriptor of a process refers to. -/
inductive Handle where
  | pipeReader (pipe : PipeId)
  | pipeWriter (pipe : PipeId)
  /-- An open file, by the number under which its unread bytes are kept. -/
  | fileReader (opening : Nat)
  | fileWriter (place : FileTree.Place)
  /-- Reads as empty and takes everything. -/
  | null
  deriving DecidableEq, Repr

/-- The descriptors of a process. -/
abbrev Descriptors := Table Nat Handle

/-- What is still to be done after a command. -/
inductive Frame where
  | sequence (next : Command)
  | both (next : Command)
  | either (next : Command)
  | negate
  | branch (yes no : Command)
  /-- The condition of a loop has been run; the body ended with a status before, or has not run. -/
  | condition (isUntil : Bool) (condition body : Command) (status : Nat)
  /-- The body of a loop has been run. -/
  | body (isUntil : Bool) (condition body : Command)
  | each (name : Text) (rest : List Text) (body : Command)
  /-- Descriptors are put back. -/
  | descriptors (saved : Descriptors)
  /-- Variables are put back. -/
  | bindings (saved : List (Text × Option Text))
  /-- A function ends, and the arguments are put back. -/
  | call (arguments : List Text)
  /-- More of the script is read from the input. -/
  | script

/-- What a script is doing. -/
inductive Activity where
  /-- It is about to run a command. -/
  | run (c : Command)
  /-- It is about to run a command whose words need the outputs of scripts: those still to be run,
  and the outputs so far, latest first. -/
  | gather (c : Command) (scripts outputs : List Text)
  /-- It reads the output of one of these scripts. -/
  | capture (c : Command) (scripts outputs : List Text) (pid : Pid) (pipe : PipeId) (read : Bytes)
  /-- A command is done. -/
  | ended
  /-- It writes to its output and then ends a command with a status; what it says if it cannot. -/
  | write (bytes : Bytes) (status : Nat) (complaint : Bytes)
  /-- It reads a line into variables; its characters so far latest first, and whether the last one
  takes the meaning from the next. -/
  | readLine (raw : Bool) (names : List Text) (line : Text) (escaped : Bool)
  /-- It waits for processes; the last of them gives the status, unless that is known. -/
  | await (pids : List Pid) (status : Option Nat)
  /-- It reads commands from its input; what it has read of an unfinished one. -/
  | readScript (text : Text)
  /-- It ends, after writing a message. -/
  | exit (message : Bytes) (status : Nat)

/-- A script at some point of its work. -/
structure Machine where
  context : Context
  functions : Table Text Command
  /-- The variables that its children are given. -/
  exported : List Text
  frames : List Frame
  activity : Activity
  /-- Whether the last command may take the place of the script. -/
  replacesLast : Bool

/-- A program at some point of its work. -/
inductive Task where
  /-- Copies: what is still to be written, the files still to be read, and the status so far. -/
  | copy (pending : Bytes) (sources : List Text) (status : Nat)
  /-- Recodes: what is still to be written, what is held back, and how a byte is changed; whether
  the input has ended. -/
  | recode (pending held : Bytes) (f : Bytes → Bytes) (ended : Bool)
  /-- Ends at a moment, if at all. -/
  | sleep (deadline : Option Nat)
  /-- Writes a message and ends. -/
  | print (message : Bytes) (status : Nat)
  | script (m : Machine)

/-- A process. -/
structure Process where
  descriptors : Descriptors
  /-- Its current directory. -/
  dir : String
  task : Task
  /-- Who waits for it. -/
  parent : Option Pid
  /-- The status with which it ended. -/
  status : Option Nat

/-- What a frame keeps open. -/
def Frame.handles : Frame → List Handle
  | .descriptors saved => saved.values
  | _ => []

/-- What a process keeps open, also that which it has put aside. -/
def Process.handles (p : Process) : List Handle :=
  p.descriptors.values ++
    match p.task with
    | .script m => m.frames.flatMap Frame.handles
    | _ => []

/-- The bytes of a page of memory. -/
def pageSize : Nat := 4096

/-- How long it takes to give back a page, in nanoseconds. -/
def pageTime : Nat := 200

/-- The memory of a process that grows with its work, in bytes: the variables of a script. -/
def Process.memory (p : Process) : Nat :=
  match p.task with
  | .script m => m.context.bindings.entries.foldl (fun n (x, v) ↦ n + x.length + v.length) 0
  | _ => 0

/-- How long a process that is killed takes to give back its memory, in whole pages. -/
def Process.exitTime (p : Process) : Nat :=
  if p.status.isSome then 0 else p.memory / pageSize * pageTime

end Sidecar.World

namespace Sidecar

open World in
/-- Processes, pipes and files, at a moment. -/
structure World where
  files : FileTree
  /-- The bytes in each pipe, oldest first. -/
  pipes : Table PipeId Bytes
  /-- The unread bytes of each open file. -/
  openings : Table Nat Bytes
  processes : Table Pid Process
  /-- The next number for a process, a pipe or an open file. -/
  next : Nat
  /-- The moment, in nanoseconds. -/
  clock : Nat
  /-- The pipes that someone outside reads. -/
  outsideReaders : List PipeId
  /-- The pipes that someone outside writes. -/
  outsideWriters : List PipeId
  /-- The directories in which programs are looked for. -/
  searchPath : String

end Sidecar
