import Sidecar.Bytes

/-!
# Pieces and lines

A byte string is cut at its newlines into one piece more than it has newlines, and no piece has one.
All pieces but the last are lines that a newline ends (`terminated`); the last is what stands behind
the newlines (`leftover`). With their newlines they make up the byte string again
(`unlines_append_leftover`).
-/

namespace Sidecar.Bytes

variable {piece data : Bytes}

/-! ## Cutting and joining -/

/-- Every byte string is cut into pieces without newlines. -/
theorem newline_notMem_of_mem_segments (h : piece ∈ segments data) : newline ∉ piece := by
  induction data generalizing piece with
  | nil =>
    obtain rfl := List.mem_singleton.mp h
    exact List.not_mem_nil
  | cons b rest ih =>
    rw [segments, List.splitOn_cons_eq_if_modifyHead] at h
    split at h
    · obtain rfl | hrest := List.mem_cons.mp h
      · exact List.not_mem_nil
      · exact ih hrest
    · next hb =>
      have hne : b ≠ newline := fun heq ↦ hb (beq_iff_eq.mpr heq)
      change ∀ piece ∈ segments rest, newline ∉ piece at ih
      change piece ∈ (segments rest).modifyHead (List.cons b) at h
      cases hpieces : segments rest with
      | nil => exact absurd hpieces (segments_ne_nil rest)
      | cons first others =>
        rw [hpieces] at h ih
        obtain rfl | hother := List.mem_cons.mp h
        · rw [List.mem_cons, not_or]
          exact ⟨hne.symm, ih first List.mem_cons_self⟩
        · exact ih piece (List.mem_cons_of_mem _ hother)

/-- A byte string has one piece more than newlines. -/
theorem length_segments (data : Bytes) : (segments data).length = data.count newline + 1 := by
  induction data with
  | nil => rfl
  | cons b rest ih =>
    rw [segments, List.splitOn_cons_eq_if_modifyHead, List.count_cons]
    rw [segments] at ih
    split
    · rw [List.length_cons, ih]
    · rw [List.length_modifyHead, ih]

/-- One piece is joined with nothing. -/
theorem joinSegments_singleton (piece : Bytes) : joinSegments [piece] = piece :=
  List.intercalate_singleton

/-- The first of several pieces stands before a newline. -/
theorem joinSegments_cons (first : Bytes) {pieces : List Bytes} (hne : pieces ≠ []) :
    joinSegments (first :: pieces) = first ++ newline :: joinSegments pieces := by
  simp [joinSegments, List.intercalate_cons_of_ne_nil hne]

/-- The last of several pieces stands behind a newline. -/
theorem joinSegments_concat {front : List Bytes} (hne : front ≠ []) (last : Bytes) :
    joinSegments (front ++ [last]) = joinSegments front ++ newline :: last := by
  induction front with
  | nil => exact absurd rfl hne
  | cons first rest ih =>
    cases rest with
    | nil => simp [joinSegments]
    | cons second rest =>
      rw [List.cons_append, joinSegments_cons first (by simp), ih (by simp),
        joinSegments_cons first (by simp)]
      simp only [List.append_assoc, List.cons_append]

/-! ## Lines -/

/-- Lines with a newline behind each. -/
def unlines (lines : List Bytes) : Bytes := lines.flatMap (· ++ [newline])

/-- The lines that a newline ends, without it. -/
def terminated (data : Bytes) : List Bytes := (segments data).dropLast

/-- What stands behind the last newline. -/
def leftover (data : Bytes) : Bytes := (segments data).getLast (segments_ne_nil data)

/-- The lines: those that a newline ends, and what stands behind them unless it is empty. -/
def lines (data : Bytes) : List Bytes :=
  if leftover data = [] then terminated data else terminated data ++ [leftover data]

/-- Lines may be written in two parts. -/
theorem unlines_append (front back : List Bytes) :
    unlines (front ++ back) = unlines front ++ unlines back :=
  List.flatMap_append

/-- The pieces are the lines that a newline ends and what stands behind them. -/
theorem segments_eq (data : Bytes) : segments data = terminated data ++ [leftover data] :=
  (List.dropLast_concat_getLast _).symm

/-- A line that a newline ends has none in it. -/
theorem newline_notMem_of_mem_terminated (h : piece ∈ terminated data) : newline ∉ piece :=
  newline_notMem_of_mem_segments (List.dropLast_subset _ h)

/-- No newline stands behind the last one. -/
theorem newline_notMem_leftover (data : Bytes) : newline ∉ leftover data :=
  newline_notMem_of_mem_segments (List.getLast_mem _)

/-- Joining puts a newline behind every piece but the last. -/
theorem joinSegments_eq_unlines_append (front : List Bytes) (last : Bytes) :
    joinSegments (front ++ [last]) = unlines front ++ last := by
  induction front with
  | nil => exact joinSegments_singleton last
  | cons first rest ih =>
    rw [List.cons_append, joinSegments_cons first (by simp), ih]
    simp [unlines]

/-- The lines with their newlines, and what stands behind them, are the byte string. -/
theorem unlines_append_leftover (data : Bytes) :
    unlines (terminated data) ++ leftover data = data := by
  rw [← joinSegments_eq_unlines_append, ← segments_eq, joinSegments_segments]

/-! ## Carriage returns -/

/-- A line has no more bytes without its carriage return, and no new ones. -/
theorem dropCarriageReturn_sublist (line : Bytes) : (dropCarriageReturn line).Sublist line := by
  unfold dropCarriageReturn
  split
  · exact List.dropLast_sublist line
  · exact List.Sublist.refl line

/-- A line without newlines has none without its carriage return either. -/
theorem newline_notMem_dropCarriageReturn {line : Bytes} (h : newline ∉ line) :
    newline ∉ dropCarriageReturn line :=
  fun hmem ↦ h ((dropCarriageReturn_sublist line).subset hmem)

/-- A line stays as it is just if no carriage return is at its end. -/
theorem dropCarriageReturn_eq_self_iff {line : Bytes} :
    dropCarriageReturn line = line ↔ line.getLast? ≠ some carriageReturn := by
  refine ⟨fun h hlast ↦ ?_, dropCarriageReturn_of_ne⟩
  obtain ⟨front, rfl⟩ := List.getLast?_eq_some_iff.mp hlast
  rw [dropCarriageReturn_concat] at h
  simp at h

end Sidecar.Bytes
