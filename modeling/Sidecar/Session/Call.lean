import Sidecar.Session.State
import Sidecar.Stage.Shared

/-!
# Calls in a session

A call is made by the caller in front, who goes on at once when it is done, or by a caller behind,
whose call is done later. What is waited for is looked at after every step.
-/

namespace Sidecar

open Supervisor (CallerId CellId Call Outcome)

namespace Session

/-- A session with a live child, given what the system holds at its beginning. -/
def create (config : Config) (env : Environment) : Except Failure Session := do
  let program ← Supervisor.program config env
  let world : World :=
    { files := env.files
      pipes := .empty
      openings := .empty
      processes := .empty
      next := World.outside + 1
      clock := 0
      outsideReaders := []
      outsideWriters := []
      searchPath := env.searchPath.getD "" }
  let start (supervisor : Supervisor) (world : World) : Session :=
    { supervisor, world, dir := env.dir, program, bodies := .empty, outbox := .empty,
      limits := .empty, wardenLimit := 0, wardenPoll := 0, next := front + 1 }
  match world.spawn env.dir program config.args with
  | .error cause =>
    match Supervisor.create config (.refused cause) .equipped none with
    | .error (failure, _) => .error failure
    | .ok supervisor => .ok (start supervisor world)
  | .ok (pid, streams, world) =>
    match Supervisor.create config .launched .equipped none with
    | .error (failure, _) => .error failure
    | .ok supervisor =>
      let s := start supervisor world
      .ok { s with bodies := s.bodies.set supervisor.generation ⟨pid, streams⟩ }

/-- Makes a call. -/
def place (s : Session) (id : CallerId) (call : Call) : Session :=
  let s := match call with
    | .exchange frame => { s with outbox := s.outbox.set id frame }
    | _ => s
  (s.apply (.call id call)).getD s

/-- What the call of a caller has come to. -/
def outcome? (s : Session) (id : CallerId) : Option Outcome :=
  match s.supervisor.callers.get? id with
  | some (.done outcome) => some outcome
  | _ => none

/-- Waits for the call of a caller, who then leaves. A call that never ends counts as closed. -/
def collect (s : Session) (id : CallerId) : Outcome × Session :=
  let s := s.runUntil none fun s ↦ (s.outcome? id).isSome
  let s' := (s.apply (.leave id)).getD s
  ((s.outcome? id).getD (.failed .closed),
    { s' with outbox := s'.outbox.erase id, limits := s'.limits.erase id })

/-- A call of the caller in front. -/
def call (s : Session) (call : Call) : Outcome × Session := (s.place front call).collect front

/-- Whether a call succeeded. -/
def result : Outcome → Except Failure Unit
  | .failed failure => .error failure
  | _ => .ok ()

/-- Makes sure that there is a child. -/
def start (s : Session) : Except Failure Unit × Session := (s.call .start).map result id

/-- Ends the child in the slot. -/
def stop (s : Session) : Except Failure Unit × Session := (s.call .stop).map result id

/-- Requests shutdown. -/
def close (s : Session) : Session := (s.call .close).2

/-- Waits for the end of shutdown, but not longer than a while. -/
def waitClosed (s : Session) (timeout : Duration) : Except Failure Unit × Session :=
  let limit : Limit := ⟨s.now + timeout.toNanos, timeout⟩
  ({ s with limits := s.limits.set front limit }.call .wait).map result id

/-- Exchanges a frame for an answer. -/
def exchange (s : Session) (frame : Bytes) : Reply × Session :=
  (s.call (.exchange frame)).map Outcome.reply id

/-- Begins an exchange and says who makes it. -/
def beginExchange (s : Session) (frame : Bytes) : CallerId × Session :=
  (s.next, { s with next := s.next + 1 }.place s.next (.exchange frame))

/-- Waits for an exchange that was begun. -/
def endExchange (s : Session) (caller : CallerId) : Reply × Session :=
  (s.collect caller).map Outcome.reply id

/-- A handle for killing the child in the slot, if there is one. -/
def killHandle (s : Session) : Option CellId × Session :=
  match s.apply (.handle s.next) with
  | some t => (some s.next, { t with next := t.next + 1 })
  | none => (none, s)

/-- Kills the child of a handle; whether a signal was sent. -/
def kill (s : Session) (cell : CellId) : Bool × Session :=
  (s.call (.kill cell)).map (· == .signalled true) id

/-- Whether a kill was requested through a handle. -/
def isKilled (s : Session) (cell : CellId) : Bool := s.supervisor.isKilled cell

/-- Whether the child of a handle is the one in the slot. -/
def isCurrent (s : Session) (cell : CellId) : Bool :=
  match s.supervisor.cells.get? cell, s.supervisor.handle with
  | some k, some g => k.target = g
  | _, _ => false

/-- Lets a while pass. -/
def sleep (s : Session) (length : Duration) : Session :=
  s.runUntil (some (s.now + length.toNanos)) fun _ ↦ false

/-- How long a state is waited for. -/
def awaitTime : Nat := 8_000_000_000

/-- Waits for a state, and says whether it has come. -/
def await (s : Session) (isGoal : Session → Bool) : Bool × Session :=
  let s := s.runUntil (some (s.now + awaitTime)) isGoal
  (isGoal s, s)

/-- Whether a child is live after so many replacements. -/
def hasRestarted (count : Nat) (s : Session) : Bool :=
  count ≤ s.supervisor.restarts && s.supervisor.handle.isSome

/-- Whether no process of a child is left. -/
def isGone (s : Session) : Bool :=
  s.supervisor.handle.isNone &&
    s.bodies.values.all fun b ↦ (s.world.processes.get? b.pid).isNone

/-- Processes a batch with a stage whose child this is. -/
def process (s : Session) (batch : Batch) (tally : Tally) : (Batch × Tally) × Session :=
  (Stage.process s.supervisor.config batch tally).run (fun r s ↦ s.exchange r.frame) s

/-- Lets workers process their batches with a stage whose child this is. -/
def share (s : Session) (tally : Tally) (batches : List (List Batch)) : Stage.Shared Session :=
  let workers := (List.range batches.length).zip (batches.map Stage.Worker.fresh)
  Stage.Shared.run patience
    ⟨s.supervisor.config, fun r s ↦ s.exchange r.frame, s, tally, none, ⟨workers⟩⟩

end Session
end Sidecar
