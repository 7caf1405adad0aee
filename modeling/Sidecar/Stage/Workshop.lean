import Sidecar.Stage.Shared
import Sidecar.Supervisor.Step

/-!
# Stages with a supervisor

A workshop is a stage that several workers share, together with the supervisor of the child that
answers them. The batch lock is `lock`. Here a request is not one move: the worker calls the
supervisor, whose threads and children take steps of their own, and leaves when the call is done. A
worker calls for an exchange only while it processes a batch, and nobody else calls. Every
interleaving is a sequence of acts.
-/

namespace Sidecar.Stage

/-- A stage with its workers and its supervisor. -/
structure Workshop where
  supervisor : Supervisor
  tally : Tally
  /-- The worker that has locked the stage. -/
  lock : Option WorkerId
  workers : Table WorkerId Worker

/-- What can happen to a stage and its supervisor. -/
inductive Act where
  /-- A worker locks the stage for its next batch. -/
  | takeUp (id : WorkerId)
  /-- A worker is done with its batch. -/
  | putDown (id : WorkerId)
  /-- The supervisor takes a step; a worker is a caller of its own number. -/
  | inner (label : Supervisor.Label)
  deriving DecidableEq, Repr

namespace Workshop

/-- Puts the supervisor into another state. -/
def withSupervisor (w : Workshop) (supervisor : Supervisor) : Workshop := { w with supervisor }

/-- What follows an act, if it is possible. -/
def step (w : Workshop) : Act → Option Workshop
  | .takeUp id =>
    match w.workers.get? id with
    | some ⟨batch :: waiting, none, finished⟩ =>
      if w.lock.isSome then none
      else
        let dialogue := process w.supervisor.config batch w.tally
        some { w with
          lock := some id, workers := w.workers.set id ⟨waiting, some dialogue, finished⟩ }
    | _ => none
  | .putDown id =>
    match w.workers.get? id with
    | some ⟨waiting, some (.done (batch, tally)), finished⟩ =>
      some { w with
        lock := none, tally, workers := w.workers.set id ⟨waiting, none, batch :: finished⟩ }
    | _ => none
  | .inner (.call id call) =>
    match w.workers.get? id with
    | some ⟨_, some (.ask request _), _⟩ =>
      if call = .exchange request.frame then
        (w.supervisor.step (.call id call)).map w.withSupervisor
      else none
    | _ => none
  | .inner (.leave id) =>
    match w.workers.get? id, w.supervisor.callers.get? id with
    | some ⟨waiting, some (.ask _ next), finished⟩, some (.done outcome) =>
      (w.supervisor.step (.leave id)).map fun supervisor ↦
        { w with
          supervisor
          workers := w.workers.set id ⟨waiting, some (next outcome.reply), finished⟩ }
    | _, _ => none
  | .inner label => (w.supervisor.step label).map w.withSupervisor

/-- What follows some acts, if all of them are possible in turn. -/
def run (w : Workshop) (acts : List Act) : Option Workshop := acts.foldlM step w

/-- The batches that a worker has got back, in order. -/
def results (w : Workshop) (id : WorkerId) : List Batch :=
  match w.workers.get? id with
  | some worker => worker.finished.reverse
  | none => []

end Workshop
end Sidecar.Stage
