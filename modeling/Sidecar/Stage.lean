import Sidecar.Batch
import Sidecar.Config
import Sidecar.Stage.Dialogue
import Sidecar.Stage.Tally

/-!
# Stages

A stage is the subprocess step of a pipeline. It replaces the selected parts of a batch by a child's
answers to them: `process` treats a batch, `processPart` a part. With the codec of lines each line
of a part is a request of its own, and the answers are put together again; with the others a part is
one request. A failure never ends a batch: what could not be answered keeps
its bytes, and the part carries the text of the last failure.
-/

namespace Sidecar.Stage

/-- The positions that a configuration selects in a batch, in the order in which it names them. An
index out of range selects nothing, and no index at all selects every part. -/
def targets (config : Config) (batch : Batch) : List Nat :=
  if config.parts = [] then List.range batch.size
  else config.parts.filterMap batch.position?

/-- Sends one payload and counts what it comes to. A payload that cannot be framed is not sent. -/
def exchange (codec : Codec) (payload : Bytes) (tally : Tally) : Dialogue (Reply × Tally) :=
  match codec.envelope payload.length with
  | .error fault => .done (.error (.framing fault), tally.countFailed)
  | .ok envelope =>
    .ask ⟨envelope, payload⟩ fun reply ↦
      match reply with
      | .ok answer => .done (.ok answer, tally.countAnswered)
      | .error failure => .done (.error failure, tally.countFailed)

/-- What has been gathered of the lines of a part. -/
structure Gathered where
  /-- One result for each line so far, latest first. -/
  results : List Bytes
  /-- The latest failure. -/
  failure : Option Failure
  tally : Tally

/-- Sends lines in order. The empty piece after a newline at the end is no line. -/
def exchangeLines : List Bytes → Gathered → Dialogue Gathered
  | [], g => .done g
  | [[]], ⟨r :: rs, failure, tally⟩ => .done ⟨[] :: r :: rs, failure, tally⟩
  | line :: rest, g => do
    let (reply, tally) ← exchange .lines line g.tally
    match reply with
    | .ok answer => exchangeLines rest ⟨answer :: g.results, g.failure, tally⟩
    | .error failure => exchangeLines rest ⟨line :: g.results, some failure, tally⟩

/-- Processes one part: its new payload, and the latest failure if there was one. -/
def processPart (codec : Codec) (data : Bytes) (tally : Tally) :
    Dialogue (Bytes × Option Failure × Tally) :=
  match codec with
  | .lines => do
    let g ← exchangeLines (Bytes.segments data) ⟨[], none, tally⟩
    .done (Bytes.joinSegments g.results.reverse, g.failure, g.tally)
  | codec => do
    let (reply, tally) ← exchange codec data tally
    match reply with
    | .ok answer => .done (answer, none, tally)
    | .error failure => .done (data, some failure, tally)

/-- Processes the part at a position. -/
def visit (codec : Codec) (position : Nat) (batch : Batch) (tally : Tally) :
    Dialogue (Batch × Tally) :=
  let tally := tally.countPart
  match batch.get? position with
  | none => .done (batch, tally)
  | some part => do
    let (data, failure, tally) ← processPart codec part.data tally
    let batch := batch.setData position data
    match failure with
    | none => .done (batch, tally)
    | some failure => .done (batch.flag position failure.message, tally)

/-- Processes the parts at some positions in order. -/
def visitAll (codec : Codec) : List Nat → Batch → Tally → Dialogue (Batch × Tally)
  | [], batch, tally => .done (batch, tally)
  | position :: rest, batch, tally => do
    let (batch, tally) ← visit codec position batch tally
    visitAll codec rest batch tally

/-- Processes a batch. -/
def process (config : Config) (batch : Batch) (tally : Tally) : Dialogue (Batch × Tally) := do
  let (batch, tally) ← visitAll config.codecSend (targets config batch) batch tally
  .done (batch, tally.countBatch)

end Sidecar.Stage
