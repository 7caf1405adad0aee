import Sidecar.Proofs.Stage.Selection

/-!
# Indices in range

An index is a signed word. It is in range of a batch if the batch has a part at it, counted from the
start or from the end, and then it has one place there. `positionInWords?` finds the place with
words alone, as far as the least index, whose distance from zero is no signed word; it finds the same
place (`positionInWords?_eq_some_iff`). A selection is the places of its indices in range, in its
order (`targets_eq`).

A visit to a place always finds a part. `processOr` is processing with something else to do where no
part is found, and it never comes to that (`processOr_eq`).
-/

namespace Sidecar

/-! ## Places -/

namespace Batch

/-- Whether a batch of some size has a part at an index. -/
def InRange (size : Nat) (index : Int64) : Prop :=
  -(size : Int) ≤ index.toInt ∧ index.toInt < size

instance (size : Nat) (index : Int64) : Decidable (InRange size index) :=
  inferInstanceAs (Decidable (_ ∧ _))

/-- The place of an index in a batch of some size; below zero it counts from the end. -/
def place (size : Nat) (index : Int64) : Nat :=
  if 0 ≤ index.toInt then index.toInt.toNat else (size + index.toInt).toNat

variable {size position : Nat} {index : Int64}

/-- An index in range names its place. -/
theorem names_iff :
    Names size index position ↔ InRange size index ∧ position = place size index := by
  unfold Names InRange place
  split <;> omega

/-- The place as a number with a sign. -/
theorem eq_place_iff (h : InRange size index) : position = place size index ↔
    (position : Int) = if 0 ≤ index.toInt then index.toInt else size + index.toInt := by
  unfold InRange at h
  unfold place
  split <;> omega

/-- An index finds its place if it is in range, and nothing else. -/
theorem position?_eq (batch : Batch) (index : Int64) : batch.position? index =
    if InRange batch.size index then some (place batch.size index) else none := by
  apply Option.ext
  intro position
  rw [position?_eq_some_iff, names_iff]
  split
  · next h => simp [h, eq_comm]
  · next h => simp [h]

/-! ## Words -/

/-- The distance of an index from zero. Negating the least index leaves it as it is, and without a
sign that is its distance. -/
def unsignedAbs (index : Int64) : UInt64 := if index < 0 then (-index).toUInt64 else index.toUInt64

/-- A difference, if it is not below zero. -/
def wordDifference? (a b : UInt64) : Option UInt64 := if b ≤ a then some (a - b) else none

/-- Finds the position that an index names with words only. -/
def positionInWords? (length : UInt64) (index : Int64) : Option UInt64 := do
  let position ←
    if index < 0 then wordDifference? length (unsignedAbs index) else some index.toUInt64
  if position < length then some position else none

/-- The bits of an index without a sign. -/
private theorem toInt_eq_toUInt64 (index : Int64) :
    index.toInt = if index.toUInt64.toNat < 0x8000_0000_0000_0000 then (index.toUInt64.toNat : Int)
      else (index.toUInt64.toNat : Int) - 0x1_0000_0000_0000_0000 := by
  have hbits : index.toInt = _ := BitVec.toInt_eq_toNat_cond index.toBitVec
  rw [Int64.toNat_toBitVec] at hbits
  rw [hbits]
  split <;> split <;> omega

/-- An index is below zero just if its number is. -/
theorem lt_zero_iff : index < 0 ↔ index.toInt < 0 := Int64.lt_iff_toInt_lt

/-- The distance from zero is right for every index, the least one included. -/
theorem toNat_unsignedAbs (index : Int64) : (unsignedAbs index).toNat = index.toInt.natAbs := by
  have hbits := toInt_eq_toUInt64 index
  have hlt := index.toUInt64.toNat_lt
  unfold unsignedAbs
  split
  · next hneg =>
    rw [lt_zero_iff] at hneg
    rw [Int64.toUInt64_neg, UInt64.toNat_neg,
      show UInt64.size = 0x1_0000_0000_0000_0000 from rfl]
    split at hbits <;> omega
  · next hpos =>
    rw [lt_zero_iff] at hpos
    split at hbits <;> omega

/-- With words only an index finds its place just if it is in range. -/
theorem positionInWords?_eq_some_iff {length position : UInt64} :
    positionInWords? length index = some position ↔
      InRange length.toNat index ∧ position.toNat = place length.toNat index := by
  have habs := toNat_unsignedAbs index
  have hbits := toInt_eq_toUInt64 index
  have hlt := index.toUInt64.toNat_lt
  have hlength := length.toNat_lt
  unfold positionInWords? InRange place
  by_cases hneg : index < 0
  · have hneg' := lt_zero_iff.mp hneg
    by_cases hle : unsignedAbs index ≤ length
    · have hle' := UInt64.le_iff_toNat_le.mp hle
      have hsub := UInt64.toNat_sub_of_le _ _ hle
      simp only [if_pos hneg, wordDifference?, if_pos hle, bind, Option.bind_some,
        Option.ite_none_right_eq_some, Option.some.injEq, UInt64.lt_iff_toNat_lt, hsub,
        ← UInt64.toNat_inj]
      rw [if_neg (by omega)]
      omega
    · have hle' := mt UInt64.le_iff_toNat_le.mpr hle
      simp only [if_pos hneg, wordDifference?, if_neg hle, bind, Option.bind_none, reduceCtorEq,
        false_iff]
      omega
  · have hneg' := mt lt_zero_iff.mpr hneg
    simp only [if_neg hneg, bind, Option.bind_some, Option.ite_none_right_eq_some,
      Option.some.injEq, UInt64.lt_iff_toNat_lt, ← UInt64.toNat_inj]
    rw [if_pos (by omega)]
    split at hbits <;> omega

end Batch

namespace Stage

/-! ## Selections -/

/-- A selection is the places of its indices in range, in its order, and without indices every
position in order. -/
theorem targets_eq (config : Config) (batch : Batch) : targets config batch =
    if config.parts = [] then List.range batch.size
    else (config.parts.filter (Batch.InRange batch.size ·)).map (Batch.place batch.size) := by
  unfold targets
  split
  · rfl
  · rw [← List.filterMap_eq_map, List.filterMap_filter]
    congr 1
    funext index
    rw [Batch.position?_eq]
    by_cases h : Batch.InRange batch.size index <;> simp [h]

/-! ## Visits that find nothing -/

/-- What could be done at a position that has no part. -/
abbrev Absent := Nat → Batch → Tally → Dialogue (Batch × Tally)

/-- Processes the part at a position, or does something else where there is none. -/
def visitOr (absent : Absent) (codec : Codec) (position : Nat) (batch : Batch) (tally : Tally) :
    Dialogue (Batch × Tally) :=
  if (batch.get? position).isSome then visit codec position batch tally
  else absent position batch tally

/-- Processes the parts at some positions in order. -/
def visitAllOr (absent : Absent) (codec : Codec) :
    List Nat → Batch → Tally → Dialogue (Batch × Tally)
  | [], batch, tally => .done (batch, tally)
  | position :: rest, batch, tally => do
    let (batch, tally) ← visitOr absent codec position batch tally
    visitAllOr absent codec rest batch tally

/-- Processes a batch. -/
def processOr (absent : Absent) (config : Config) (batch : Batch) (tally : Tally) :
    Dialogue (Batch × Tally) := do
  let (batch, tally) ← visitAllOr absent config.codecSend (targets config batch) batch tally
  .done (batch, tally.countBatch)

/-- What is done at positions without a part does not matter where there are none. -/
theorem visitAllOr_eq (absent : Absent) (codec : Codec) {positions : List Nat} {batch : Batch}
    (hlt : ∀ position ∈ positions, position < batch.size) (tally : Tally) :
    visitAllOr absent codec positions batch tally = visitAll codec positions batch tally := by
  induction positions generalizing batch tally with
  | nil => rfl
  | cons position rest ih =>
    have hposition : position < batch.parts.length := hlt position List.mem_cons_self
    have hget : batch.get? position = some batch.parts[position] :=
      List.getElem?_eq_getElem hposition
    have hvisit : visitOr absent codec position batch tally = visit codec position batch tally :=
      if_pos (by rw [hget]; rfl)
    simp only [visitAllOr, visitAll, hvisit, visit_of_get? hget, Dialogue.bind_eq,
      Dialogue.bind_assoc, Dialogue.done_bind]
    congr 1
    funext x
    obtain ⟨part, t⟩ := x
    -- The batch has another part at the position now, and as many parts as before.
    apply ih
    intro p hp
    rw [Batch.size, List.length_set]
    exact hlt p (List.mem_cons_of_mem position hp)

/-- Processing a batch never comes to a position without a part. -/
theorem processOr_eq (absent : Absent) (config : Config) (batch : Batch) (tally : Tally) :
    processOr absent config batch tally = process config batch tally := by
  have hlt : ∀ position ∈ targets config batch, position < batch.size := fun _ ↦ lt_of_mem_targets
  rw [processOr, process, visitAllOr_eq absent config.codecSend hlt]

/-- An index finds a position just if it is at least the number of parts below zero and below that
number: its own, or for an index below zero the one that many before the end. Words are enough to
find it, for every number of parts and every index. A selection is the positions of its indices in
range, in its order, or all positions in order if it has no index. They are all positions of the
batch, and whatever were done at a position without a part, it never is. -/
theorem targets_in_range (config : Config) (batch : Batch) :
    (∀ index position, batch.position? index = some position ↔
      -(batch.size : Int) ≤ index.toInt ∧ index.toInt < batch.size ∧
        (position : Int) = if 0 ≤ index.toInt then index.toInt else batch.size + index.toInt) ∧
    (∀ (length : UInt64) index (position : UInt64),
      Batch.positionInWords? length index = some position ↔
        -(length.toNat : Int) ≤ index.toInt ∧ index.toInt < length.toNat ∧
          (position.toNat : Int) =
            if 0 ≤ index.toInt then index.toInt else length.toNat + index.toInt) ∧
    (targets config batch =
      if config.parts = [] then List.range batch.size
      else (config.parts.filter (Batch.InRange batch.size ·)).map (Batch.place batch.size)) ∧
    (∀ position ∈ targets config batch, position < batch.size) ∧
    ∀ absent tally, processOr absent config batch tally = process config batch tally := by
  refine ⟨fun index position ↦ ?_, fun length index position ↦ ?_, targets_eq config batch,
    fun _ ↦ lt_of_mem_targets, fun absent tally ↦ processOr_eq absent config batch tally⟩
  · rw [Batch.position?_eq_some_iff, Batch.names_iff, ← and_assoc]
    exact and_congr_right Batch.eq_place_iff
  · rw [Batch.positionInWords?_eq_some_iff, ← and_assoc]
    exact and_congr_right Batch.eq_place_iff

/-- The least index is in range of no batch that fits into memory, and a batch of three parts has
five indices in range among these. -/
example :
    Batch.positionInWords? 0x7fff_ffff_ffff_ffff Int64.minValue = none ∧
      targets { parts := [-1, 3, 0, -4, Int64.minValue, 2, -3, -1] }
        (Batch.ofPayloads [[], [], []]) = [2, 0, 2, 0, 2] := by
  decide +kernel

end Stage
end Sidecar
