import Sidecar.World.Redirect

/-!
# Scripts at work

A turn is a script in its process. This module says how a script ends a command, puts back what its
frames have saved, leaves loops and functions, and makes processes of its own.
-/

namespace Sidecar.World

open Shell (Text Word Command Context Variables)

/-- A script whose turn it is. -/
structure Turn where
  world : World
  pid : Pid
  machine : Machine

/-- The descriptor through which a script reads the output of another. -/
def captureDescriptor : Nat := 10

namespace Turn

/-- The world after a turn. -/
def done (t : Turn) : World := t.world.setTask t.pid (.script t.machine)

/-- What the script knows about itself. -/
def context (t : Turn) : Context := t.machine.context

/-- Sets what the script knows about itself. -/
def setContext (t : Turn) (context : Context) : Turn :=
  { t with machine := { t.machine with context } }

/-- Sets what the script is doing. -/
def become (t : Turn) (activity : Activity) : Turn :=
  { t with machine := { t.machine with activity } }

/-- Remembers what is to be done after a command. -/
def push (t : Turn) (f : Frame) : Turn :=
  { t with machine := { t.machine with frames := f :: t.machine.frames } }

/-- Sets the frames. -/
def setFrames (t : Turn) (frames : List Frame) : Turn :=
  { t with machine := { t.machine with frames } }

/-- Runs a command. -/
def run (t : Turn) (c : Command) : Turn := t.become (.run c)

/-- Sets the status of the last command. -/
def setStatus (t : Turn) (status : Nat) : Turn := t.setContext { t.context with status }

/-- Ends a command. -/
def finish (t : Turn) (status : Nat) : Turn := (t.setStatus status).become .ended

/-- Ends the script after a message. -/
def leave (t : Turn) (message : Bytes) (status : Nat) : Turn := t.become (.exit message status)

/-- The directory of the process. -/
def dir (t : Turn) : String := ((t.world.processes.get? t.pid).map (·.dir)).getD "/"

/-- The descriptors of the process. -/
def descriptors (t : Turn) : Descriptors :=
  ((t.world.processes.get? t.pid).map (·.descriptors)).getD .empty

/-- Sets the descriptors of the process. -/
def setDescriptors (t : Turn) (descriptors : Descriptors) : Turn :=
  { t with world := t.world.modify t.pid ({ · with descriptors }) }

/-- Sets the value of a variable, or takes it away. -/
def setVariable (t : Turn) (name : Text) (value : Option Text) : Turn :=
  let bindings := t.context.bindings
  t.setContext { t.context with
    bindings := match value with
      | some v => bindings.set name v
      | none => bindings.erase name }

/-- A message of the script about one of its lines. -/
def complaint (t : Turn) (line : Nat) (text : Text) : Bytes :=
  bytesOfText (t.context.name ++ [':', ' '] ++ Shell.natText line ++ [':', ' '] ++ text ++ ['\n'])

/-- Writes a message of the script about one of its lines. -/
def say (t : Turn) (line : Nat) (text : Text) : Turn :=
  { t with world := t.world.complain t.pid (t.complaint line text) }

/-- Ends a command that went wrong. -/
def fail (t : Turn) (line : Nat) (text : Text) (status : Nat) : Turn :=
  (t.say line text).finish status

/-! ## Frames -/

/-- Puts back what a frame has saved. -/
def restore (t : Turn) : Frame → Turn
  | .descriptors saved => t.setDescriptors saved
  | .bindings saved => saved.foldl (fun t (name, value) ↦ t.setVariable name value) t
  | .call arguments => t.setContext { t.context with arguments }
  | _ => t

/-- Gives up frames up to the first of a kind, and gives up that one too. -/
def popTo (isWanted : Frame → Bool) : List Frame → Turn → Option Frame × Turn
  | [], t => (none, t.setFrames [])
  | f :: rest, t =>
    let t := t.restore f
    if isWanted f then (some f, t.setFrames rest) else popTo isWanted rest t

/-- Whether a frame is of a loop. -/
def isLoop : Frame → Bool
  | .condition .. => true
  | .body .. => true
  | .each .. => true
  | _ => false

/-- Whether a frame is of a function. -/
def isCall : Frame → Bool
  | .call _ => true
  | _ => false

/-- Leaves loops, and begins the next round of the last of them if it is to be continued. -/
def leaveLoops (continues : Bool) : Nat → Turn → Turn
  | 0, t => t.finish 0
  | count + 1, t =>
    match popTo isLoop t.machine.frames t with
    | (some f, t) =>
      if count = 0 then
        let t := t.finish 0
        if continues then
          match f with
          | .condition isUntil condition body _ => t.push (.body isUntil condition body)
          | f => t.push f
        else t
      else leaveLoops continues count t
    | (none, t) => t.finish 0

/-- Leaves or continues so many loops, as far as there are any in the present function. -/
def interruptLoops (t : Turn) (continues : Bool) (count : Nat) : Turn :=
  let loops := (t.machine.frames.takeWhile fun f ↦ !isCall f).countP isLoop
  leaveLoops continues (min count loops) t

/-- Leaves the present function, or the script. -/
def leaveFunction (t : Turn) (status : Nat) : Turn :=
  if t.machine.frames.any isCall then
    (popTo isCall t.machine.frames t).2.finish status
  else t.leave [] status

/-- Goes on after a command that ended. -/
def resume (t : Turn) : World :=
  match t.machine.frames with
  | [] => t.world.exit t.pid t.context.status
  | f :: rest =>
    let t := t.setFrames rest
    let succeeded := t.context.status == 0
    let t := match f with
      | .sequence next => t.run next
      | .both next => if succeeded then t.run next else t
      | .either next => if succeeded then t else t.run next
      | .negate => t.setStatus (if succeeded then 1 else 0)
      | .branch yes no => t.run (if succeeded then yes else no)
      | .condition isUntil condition body status =>
        if succeeded != isUntil then (t.push (.body isUntil condition body)).run body
        else t.setStatus status
      | .body isUntil condition body =>
        (t.push (.condition isUntil condition body t.context.status)).run condition
      | .each _ [] _ => t
      | .each name (x :: xs) body =>
        ((t.setVariable name (some x)).push (.each name xs body)).run body
      | .script => t.become (.readScript [])
      | f => t.restore f
    t.done

/-! ## Processes of a script -/

/-- A process of the script's own, in which it does something with given descriptors. -/
def fork (t : Turn) (descriptors : Descriptors) (activity : Activity) : Pid × Turn :=
  let machine := { t.machine with activity, frames := [], replacesLast := true }
  let (pid, world) := t.world.add
    ⟨descriptors.erase captureDescriptor, t.dir, .script machine, some t.pid, none⟩
  (pid, { t with world })

/-- What a process that runs a text begins with. -/
def beginning (t : Turn) (script : Text) : Activity :=
  match Command.ofScript? script with
  | some c => .run c
  | none => .exit (t.complaint 1 "Syntax error".toList) 2

/-- Processes for the stages of a pipeline, the first of them with a given input. -/
def forkStages (t : Turn) (input : Option Handle) : List Command → List Pid × Turn
  | [] => ([], t)
  | c :: rest =>
    let descriptors := match input with
      | some h => t.descriptors.set 0 h
      | none => t.descriptors
    if rest = [] then
      let (pid, t) := t.fork descriptors (.run c)
      ([pid], t)
    else
      let (pipe, world) := t.world.makePipe
      let (pid, t) := { t with world }.fork (descriptors.set 1 (.pipeWriter pipe)) (.run c)
      let (pids, t) := forkStages t (some (.pipeReader pipe)) rest
      (pid :: pids, t)

/-- The processes of the script that have not been waited for. -/
def offspring (t : Turn) : List Pid :=
  t.world.processes.entries.filterMap fun (pid, p) ↦
    if p.parent = some t.pid then some pid else none

/-- Whether the next command is the last and may take the script's place. -/
def isLast (t : Turn) : Bool := t.machine.replacesLast && t.machine.frames.isEmpty

/-- The variables that a program is given. -/
def environment (t : Turn) : Variables :=
  ⟨t.context.bindings.entries.filter fun e ↦ t.machine.exported.contains e.1⟩

end Turn
end Sidecar.World
