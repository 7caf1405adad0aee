import Sidecar.Config
import Sidecar.Stream.Outlet
import Sidecar.Table

/-!
# The state of a supervisor

A supervisor keeps one child in its slot. Callers work on it from any thread, and a warden, which
is a thread of the supervisor's own, watches the child in the slot and replaces it when its output
ends. The state holds the slot, every child that was ever spawned, and where the warden and each
caller stand. A child is known by its generation, and later children have larger ones.

* The *warden* is the supervision thread. Its loop begins at `looking`. From `reclaiming` on it
  restarts the child, from `marking` on it respawns it, and from `closing` on it shuts down.
* The *slot* is the mutex around the process handle, which is `handle`. It is locked for one step,
  save while a child is spawned into it (`lock`).
* A *child* is a process with its channels, and is kept after it was reaped. Its exit signal is
  `hasFired` and `exitNotice`.
* An *outlet* is a decoder thread with the channel of its tokens.
* A *cell* is what a kill handle shares with its clones.
* A *caller* is a thread in a public call. It stands where other threads may come in between.
-/

namespace Sidecar

namespace Supervisor

/-- The number of a child. -/
abbrev Generation := Nat

/-- A thread that calls the supervisor. -/
abbrev CallerId := Nat

/-- A kill request, shared by all copies of one handle. -/
abbrev CellId := Nat

/-- What the supervisor is doing, as it is shown. -/
inductive Lifecycle where
  /-- The first child is being spawned. -/
  | starting
  /-- A child is live and takes requests. -/
  | running
  /-- The child ended and is being reaped. -/
  | exiting
  /-- A replacement is being spawned. -/
  | restarting
  /-- Shutdown was requested. -/
  | closed
  deriving DecidableEq, Repr

namespace Lifecycle

/-- The name of a lifecycle state. -/
def name : Lifecycle → String
  | .starting => "starting"
  | .running => "running"
  | .exiting => "exiting"
  | .restarting => "restarting"
  | .closed => "closed"

/-- Whether nothing follows. -/
def isTerminal : Lifecycle → Bool
  | .closed => true
  | _ => false

/-- The next state, unless nothing can follow the present one. -/
def enter (present next : Lifecycle) : Lifecycle := if present.isTerminal then present else next

/-- A terminal state is kept. -/
theorem enter_closed (next : Lifecycle) : enter .closed next = .closed := rfl

end Lifecycle

/-- The output streams of a child. -/
inductive Stream where
  /-- Answers. -/
  | out
  /-- Errors. -/
  | err
  deriving DecidableEq, Repr

/-- How far a child has come as a process. -/
inductive Status where
  | running
  /-- It ended and has not been waited for. -/
  | exited
  /-- It ended and has been waited for. -/
  | reaped
  deriving DecidableEq, Repr

/-- A child and the supervisor's ends of its streams. -/
structure Child where
  status : Status
  /-- Whether the warden spawned it, in place of an earlier one. -/
  isReplacement : Bool
  /-- Whether its input is still open on the supervisor's side. -/
  hasInput : Bool
  /-- The caller that is writing to its input. -/
  writer : Option CallerId
  /-- The frames written to its input as a whole, latest first. -/
  requests : List Bytes
  out : Outlet
  err : Outlet
  /-- Whether the end of one of its streams has been reported. -/
  hasFired : Bool
  /-- Whether that report still waits for the warden. -/
  exitNotice : Bool
  deriving DecidableEq, Repr

namespace Child

/-- One of the outlets. -/
def outlet (c : Child) : Stream → Outlet
  | .out => c.out
  | .err => c.err

/-- Sets one of the outlets. -/
def setOutlet (c : Child) (stream : Stream) (o : Outlet) : Child :=
  match stream with
  | .out => { c with out := o }
  | .err => { c with err := o }

/-- Whether who waits for the end of its streams goes on: a report of it waits, or both streams have
been reported and nobody is left to report. The latter stays so. -/
def showsExit (c : Child) : Bool :=
  c.exitNotice || (c.out.phase = .reported && c.err.phase = .reported)

/-- A child that has just been spawned. -/
def fresh (config : Config) (isReplacement : Bool) : Child where
  status := .running
  isReplacement
  hasInput := true
  writer := none
  requests := []
  out := Outlet.fresh config.codecRecv config.maxBuffer.toNat
  err := Outlet.fresh .lines config.maxBuffer.toNat
  hasFired := false
  exitNotice := false

end Child

/-- How far a start has come. The slot is locked while a child is launched and equipped. -/
inductive Start where
  /-- It has not locked the slot yet. -/
  | requested
  /-- No child has been spawned yet. -/
  | launching
  /-- A child has been spawned without its standard streams. -/
  | discarding
  /-- A child has been spawned, and its decoders have not. -/
  | equipping (g : Generation)
  /-- A decoder could not be spawned, and the child has to go. -/
  | scrapping (g : Generation) (cause : IoFault)
  deriving DecidableEq, Repr

/-- What spawning a child comes to. -/
inductive Launch where
  /-- The system refuses. -/
  | refused (cause : IoFault)
  /-- A child runs, and one of its standard streams is missing. -/
  | uncaptured
  /-- A child runs. -/
  | launched
  deriving DecidableEq, Repr

/-- What spawning the decoders comes to. -/
inductive Equip where
  | equipped
  /-- One of the two could not be spawned. -/
  | failed (cause : IoFault)
  deriving DecidableEq, Repr

/-- Where the warden stands. -/
inductive Warden where
  /-- It is about to look into the slot. -/
  | looking
  /-- It waits for the end of a child, or for a close request. -/
  | watching (g : Generation)
  /-- It waits before it tries to spawn a child again, or for a close request. -/
  | resting
  /-- It noticed the end of a child and is about to take it out of the slot. -/
  | reclaiming (g : Generation)
  /-- It is about to kill the child taken out and to wait for it. -/
  | reaping (g : Generation)
  /-- It reads what nobody has taken of the child's output. -/
  | draining (g : Generation)
  /-- It is about to check whether shutdown was requested. -/
  | checking
  /-- It is about to show that a replacement is being spawned. -/
  | marking
  /-- It is spawning a replacement. -/
  | starting (s : Start)
  /-- It is about to count a replacement. -/
  | counting
  /-- It left its loop and is about to take the last child out of the slot. -/
  | closing
  /-- It is about to close the last child's input. -/
  | dismissing (g : Generation)
  /-- It gives the last child time to end. -/
  | lingering (g : Generation)
  /-- It is about to kill the last child and to wait for it. -/
  | finishing (g : Generation)
  /-- It is about to announce that all is done. -/
  | releasing
  | finished
  deriving DecidableEq, Repr

/-- What a call comes to. -/
inductive Outcome where
  | ok
  | answer (token : Bytes)
  | failed (failure : Failure)
  /-- Whether a kill request sent a signal. -/
  | signalled (sent : Bool)
  deriving DecidableEq, Repr

/-- The answer of an exchange. -/
def Outcome.reply : Outcome → Except Failure Bytes
  | .answer token => .ok token
  | .failed failure => .error failure
  | _ => .error .closed

/-- Where a caller stands. -/
inductive Caller where
  | starting (s : Start)
  /-- It is about to take the child out of the slot. -/
  | stopping
  /-- It is about to kill the child taken out and to wait for it. -/
  | reaping (g : Generation)
  /-- It has a frame to exchange and is about to look for the child. -/
  | sending (frame : Bytes)
  /-- It is about to lock the child's input. -/
  | entering (g : Generation) (frame : Bytes)
  /-- It is writing to the child's input, which is locked. -/
  | writing (g : Generation) (frame : Bytes)
  /-- It waits for a token of the child. -/
  | awaiting (g : Generation)
  /-- It collects the lines of an error, latest first. -/
  | collecting (g : Generation) (lines : List Bytes)
  /-- It is about to request shutdown. -/
  | closing
  /-- It requested shutdown and is about to show it. -/
  | announcing
  /-- It is about to tell the warden. -/
  | notifying
  /-- It waits for the warden to be done. -/
  | waiting
  /-- It is about to request a kill. -/
  | targeting (cell : CellId)
  /-- It requested a kill and is about to send the signal. -/
  | signalling (g : Generation)
  | done (outcome : Outcome)
  deriving DecidableEq, Repr

/-- Who has locked the slot. -/
inductive Holder where
  | caller (id : CallerId)
  | warden
  deriving DecidableEq, Repr

/-- A kill request. -/
structure KillCell where
  target : Generation
  /-- Whether the kill has been requested. -/
  requested : Bool
  deriving DecidableEq, Repr

end Supervisor

open Supervisor in
/-- A supervisor with all its threads and children. -/
structure Supervisor where
  config : Config
  /-- Who has locked the slot for longer than one step. -/
  lock : Option Holder
  /-- The child in the slot. -/
  handle : Option Generation
  lifecycle : Lifecycle
  /-- Whether shutdown was requested. -/
  isClosed : Bool
  /-- Whether a close request waits for the warden. -/
  closeNotice : Bool
  /-- The generation of the latest child. It counts without bound. A counter of 64 bits is the same
  for the first 2^64 children. -/
  generation : Generation
  /-- How often the child has been replaced, which is counted without bound too. -/
  restarts : Nat
  children : Table Generation Child
  /-- Children that were given up before they had a generation. -/
  strays : List Status
  warden : Warden
  callers : Table CallerId Caller
  cells : Table CellId KillCell

end Sidecar
