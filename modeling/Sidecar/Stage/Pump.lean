import Sidecar.Stage

/-!
# Pumping messages through a stage

The lines of an input are messages. They are gathered into batches, a stage processes each batch,
and what becomes of a message is written on a line of its own, in the order of the messages. A
message that failed is complained of under its number.
-/

namespace Sidecar.Pump

/-- The messages of an input: its lines, without an empty rest after the last newline. -/
def messages (input : Bytes) : List Bytes :=
  let pieces := Bytes.segments input
  if pieces.getLast? = some [] then pieces.dropLast else pieces

/-- Groups of so many messages; the last group may be smaller. -/
def groups {α : Type} (size : Nat) : List α → List (List α)
  | [] => []
  | m :: rest => (m :: rest.take (size - 1)) :: groups size (rest.drop (size - 1))
termination_by ms => ms.length
decreasing_by
  simp only [List.length_drop, List.length_cons]
  omega

/-- The bytes that are set aside for each message of a batch. -/
def slotSize : Nat := 24

/-- The most bytes that can be set aside at once. -/
def maxRoom : Nat := 0x7fff_ffff_ffff_ffff

/-- The bytes to set aside for a batch of so many messages, unless they are too many. -/
def reserve? (batchSize : Nat) : Option Nat :=
  if batchSize * slotSize ≤ maxRoom then some (batchSize * slotSize) else none

/-- What has been written and counted. The counts are without bound. Counters of 64 bits are the
same as long as the messages are fewer than 2^64. -/
structure Report where
  output : Bytes := []
  complaints : String := ""
  messages : Nat := 0
  failed : Nat := 0
  batches : Nat := 0
  deriving DecidableEq, Repr

namespace Report

/-- Writes what became of a message. -/
def addPart (r : Report) (part : Part) : Report :=
  let number := r.messages + 1
  let r := match part.error with
    | some text =>
      let complaint := s!"message {number}: {text}\n"
      { r with complaints := r.complaints ++ complaint, failed := r.failed + 1 }
    | none => r
  { r with output := r.output ++ part.data ++ [Bytes.newline], messages := number }

/-- Writes what became of a batch. -/
def addBatch (r : Report) (batch : Batch) : Report :=
  let r := batch.parts.foldl addPart r
  { r with batches := r.batches + 1 }

end Report

/-- Processes groups of messages in order. -/
def run (config : Config) : List (List Bytes) → Tally → Report → Dialogue (Report × Tally)
  | [], tally, report => .done (report, tally)
  | group :: rest, tally, report => do
    let (batch, tally) ← Stage.process config (Batch.ofPayloads group) tally
    run config rest tally (report.addBatch batch)

/-- Processes the messages of an input. -/
def pump (config : Config) (batchSize : Nat) (input : Bytes) : Dialogue (Report × Tally) :=
  run config (groups batchSize (messages input)) {} {}

end Sidecar.Pump
