import Sidecar.Stage
import Sidecar.Table

/-!
# Stages shared by several workers

Several workers have batches for one stage. A worker locks the stage for a whole batch, so that the
requests of two batches never mix: a worker that finds it locked waits. `step` moves one worker,
and any order in which workers are moved is possible.
-/

namespace Sidecar.Stage

/-- The number of a worker. -/
abbrev WorkerId := Nat

/-- Someone with batches for a stage. -/
structure Worker where
  /-- The batches still to be processed. -/
  waiting : List Batch
  /-- What is left of the batch being processed. -/
  current : Option (Dialogue (Batch × Tally))
  /-- The batches that have been processed, latest first. -/
  finished : List Batch

/-- A worker that has done nothing yet. -/
def Worker.fresh (batches : List Batch) : Worker := ⟨batches, none, []⟩

/-- A stage with its workers and the peer that answers its requests. -/
structure Shared (σ : Type) where
  config : Config
  peer : Request → σ → Reply × σ
  /-- The state of the peer. -/
  state : σ
  tally : Tally
  /-- The worker that has locked the stage. -/
  lock : Option WorkerId
  workers : Table WorkerId Worker

namespace Shared

variable {σ : Type}

/-- Moves a worker: it locks the stage for its next batch, makes a request, or is done with the
batch. None if it has nothing to do or waits for the lock. -/
def step (s : Shared σ) (id : WorkerId) : Option (Shared σ) :=
  match s.workers.get? id with
  | none => none
  | some w =>
    let place (s : Shared σ) (w : Worker) : Shared σ := { s with workers := s.workers.set id w }
    match w.current, w.waiting with
    | some (.ask request next), _ =>
      let (reply, state) := s.peer request s.state
      some (place { s with state } { w with current := some (next reply) })
    | some (.done (batch, tally)), _ =>
      some (place { s with lock := none, tally }
        { w with current := none, finished := batch :: w.finished })
    | none, [] => none
    | none, batch :: waiting =>
      if s.lock.isSome then none
      else
        some (place { s with lock := some id }
          { w with waiting, current := some (process s.config batch s.tally) })

/-- Moves each of some workers that can be moved once; whether any was. -/
def round (s : Shared σ) (ids : List WorkerId) : Bool × Shared σ :=
  ids.foldl (fun (moved, s) id ↦
    match s.step id with
    | some s => (true, s)
    | none => (moved, s)) (false, s)

/-- Moves all workers in turn until none can be moved; the number bounds the rounds. -/
def run : Nat → Shared σ → Shared σ
  | 0, s => s
  | fuel + 1, s =>
    match s.round s.workers.keys with
    | (true, s) => run fuel s
    | (false, s) => s

/-- The batches that a worker has got back, in order. -/
def results (s : Shared σ) (id : WorkerId) : List Batch :=
  match s.workers.get? id with
  | some w => w.finished.reverse
  | none => []

end Shared
end Sidecar.Stage
