import Sidecar.Bytes

/-!
# Batches

A batch is an ordered list of parts, each a payload that may carry the text of a failure. Positions
count from zero; a selection may also count from the end with negative numbers, and `position?`
says which position such an index names; it is always within the batch (`position?_lt`).
-/

namespace Sidecar

/-- A payload and the failure attached to it, if any. -/
structure Part where
  data : Bytes
  error : Option String := none
  deriving DecidableEq, Repr, Inhabited

namespace Part

/-- Marks a part as failed; a later failure replaces an earlier one. -/
def flag (part : Part) (text : String) : Part := { part with error := some text }

/-- Whether a part has been marked as failed. -/
def isFailed (part : Part) : Bool := part.error.isSome

end Part

/-- An ordered list of parts. -/
structure Batch where
  /-- The parts in order. -/
  parts : List Part
  deriving DecidableEq, Repr, Inhabited

namespace Batch

/-- One part for each payload, none of them failed. -/
def ofPayloads (payloads : List Bytes) : Batch := ⟨payloads.map fun data ↦ { data }⟩

/-- The number of parts. -/
def size (batch : Batch) : Nat := batch.parts.length

/-- The part at a position. -/
def get? (batch : Batch) (position : Nat) : Option Part := batch.parts[position]?

/-- Changes the part at a position; elsewhere nothing happens. -/
def modify (batch : Batch) (position : Nat) (f : Part → Part) : Batch :=
  ⟨batch.parts.modify position f⟩

/-- Replaces the payload at a position. -/
def setData (batch : Batch) (position : Nat) (data : Bytes) : Batch :=
  batch.modify position ({ · with data })

/-- Marks the part at a position as failed. -/
def flag (batch : Batch) (position : Nat) (text : String) : Batch :=
  batch.modify position (·.flag text)

/-- The number of failed parts. -/
def failedCount (batch : Batch) : Nat := batch.parts.countP (·.isFailed)

/-- The position that an index names: counted from the start, or from the end when negative. -/
def position? (batch : Batch) (index : Int64) : Option Nat :=
  let i := index.toInt
  let position := if i < 0 then batch.size - i.natAbs else i.toNat
  if i < 0 ∧ batch.size < i.natAbs then none
  else if position < batch.size then some position
  else none

/-- Changing a part keeps the number of parts. -/
@[simp] theorem size_modify (batch : Batch) (position : Nat) (f : Part → Part) :
    (batch.modify position f).size = batch.size := by
  simp [size, modify]

/-- An index never names a position beyond the batch. -/
theorem position?_lt {batch : Batch} {index : Int64} {position : Nat}
    (h : batch.position? index = some position) : position < batch.size := by
  simp only [position?] at h
  generalize index.toInt = i at h
  split at h
  · cases h
  · rw [Option.ite_none_right_eq_some] at h
    exact Option.some.inj h.2 ▸ h.1

end Batch
end Sidecar
