import Sidecar.World.Load

/-!
# Steps of programs

A program reads what is there, writes as much as there is room for, and waits when it can do
neither. A write to a broken pipe ends it.
-/

namespace Sidecar.World

open Shell (Text)

/-- A descriptor of a process. -/
def handle (w : World) (pid : Pid) (descriptor : Nat) : Option Handle :=
  (w.processes.get? pid).bind fun p ↦ p.descriptors.get? descriptor

/-- Writes a message to the error stream of a process, as far as there is room. -/
def complain (w : World) (pid : Pid) (message : Bytes) : World :=
  if message = [] then w else (w.write (w.handle pid 2) message).2

/-- Writes from a process that goes on with what could not be written; a broken pipe ends it. -/
def writeFrom (w : World) (pid : Pid) (bytes : Bytes) (goOn : Bytes → Task)
    (unwritable : World → World) : Option World :=
  match w.write (w.handle pid 1) bytes with
  | (.taken n, w) => some (w.setTask pid (goOn (bytes.drop n)))
  | (.pending, _) => none
  | (.broken, w) => some (w.exit pid (signalStatus sigpipe))
  | (.unwritable, w) => some (unwritable w)

/-- A program that cannot write says so and fails. -/
def failWriting (pid : Pid) (tool : Tool) (w : World) : World :=
  (w.complain pid (complaint tool.name "write error: Bad file descriptor")).exit pid 1

/-- The text of a lookup that failed, as programs show it. -/
def lookupText : FileTree.PathFault → String
  | .missing => "No such file or directory"
  | .notDirectory => "Not a directory"
  | .isDirectory => "Is a directory"
  | .nameTooLong => "File name too long"
  | .nul => "No such file or directory"

/-- A step of a copy. -/
def stepCopy (w : World) (pid : Pid) (dir : String) (pending : Bytes) (sources : List Text)
    (status : Nat) : Option World :=
  if pending ≠ [] then
    w.writeFrom pid pending (.copy · sources status) (failWriting pid .cat)
  else
    match sources with
    | [] => some (w.exit pid status)
    | ['-'] :: rest =>
      match w.read (w.handle pid 0) with
      | (.bytes b, w) => some (w.setTask pid (.copy b sources status))
      | (.ended, w) => some (w.setTask pid (.copy [] rest status))
      | (.pending, _) => none
      | (.unreadable, w) =>
        some ((w.complain pid (complaint "cat" "-: Bad file descriptor")).setTask pid
          (.copy [] rest 1))
    | source :: rest =>
      match w.files.read dir (stringOfText source) with
      | .ok data => some (w.setTask pid (.copy data rest status))
      | .error fault =>
        let text := s!"{stringOfText source}: {lookupText fault}"
        some ((w.complain pid (complaint "cat" text)).setTask pid (.copy [] rest 1))

/-- The number of bytes that a recoding holds back until its input ends. -/
def blockSize : Nat := 4096

/-- A step of a recoding, which writes whole blocks until its input ends. -/
def stepRecode (w : World) (pid : Pid) (pending held : Bytes) (f : Bytes → Bytes)
    (ended : Bool) : Option World :=
  if pending ≠ [] then
    w.writeFrom pid pending (.recode · held f ended) (failWriting pid .tr)
  else if ended then
    if held = [] then some (w.exit pid 0) else some (w.setTask pid (.recode held [] f true))
  else
    match w.read (w.handle pid 0) with
    | (.bytes b, w) =>
      let all := held ++ f b
      if all.length ≤ blockSize then some (w.setTask pid (.recode [] all f false))
      else
        let whole := all.length - all.length % blockSize
        some (w.setTask pid (.recode (all.take whole) (all.drop whole) f false))
    | (.ended, w) => some (w.setTask pid (.recode [] held f true))
    | (.pending, _) => none
    | (.unreadable, w) =>
      some ((w.complain pid (complaint "tr" "read error: Bad file descriptor")).exit pid 1)

/-- A step of a sleep. -/
def stepSleep (w : World) (pid : Pid) (deadline : Option Nat) : Option World :=
  match deadline with
  | none => none
  | some moment => if moment ≤ w.clock then some (w.exit pid 0) else none

end Sidecar.World
