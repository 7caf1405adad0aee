/-!
# Tables

A table gives values to keys. Setting a key replaces its value in place, or adds the key at the
end, so that keys keep the order in which they first came.
-/

namespace Sidecar

/-- Keys with their values, in order of arrival. -/
structure Table (κ α : Type) where
  entries : List (κ × α)
  deriving Repr

namespace Table

variable {κ α : Type} [DecidableEq κ]

/-- A table without keys. -/
def empty : Table κ α := ⟨[]⟩

instance : Inhabited (Table κ α) := ⟨empty⟩

private def setEntry (k : κ) (a : α) : List (κ × α) → List (κ × α)
  | [] => [(k, a)]
  | (k', a') :: rest => if k' = k then (k, a) :: rest else (k', a') :: setEntry k a rest

private def findEntry (k : κ) : List (κ × α) → Option α
  | [] => none
  | (k', a) :: rest => if k' = k then some a else findEntry k rest

/-- The value of a key. -/
def get? (t : Table κ α) (k : κ) : Option α := findEntry k t.entries

/-- Sets the value of a key. -/
def set (t : Table κ α) (k : κ) (a : α) : Table κ α := ⟨setEntry k a t.entries⟩

/-- Removes a key. -/
def erase (t : Table κ α) (k : κ) : Table κ α := ⟨t.entries.filter fun e ↦ ¬ e.1 = k⟩

/-- Changes the value of a key, if it has one. -/
def modify (t : Table κ α) (k : κ) (f : α → α) : Table κ α :=
  match t.get? k with
  | some a => t.set k (f a)
  | none => t

/-- The keys in order. -/
def keys (t : Table κ α) : List κ := t.entries.map (·.1)

/-- The values in the order of their keys. -/
def values (t : Table κ α) : List α := t.entries.map (·.2)

/-- An empty table has no values. -/
@[simp] theorem get?_empty (k : κ) : (empty : Table κ α).get? k = none := rfl

/-- What was set is got, and other keys keep what they had. -/
theorem get?_set (t : Table κ α) (k k' : κ) (a : α) :
    (t.set k a).get? k' = if k = k' then some a else t.get? k' := by
  simp only [get?, set]
  induction t.entries with
  | nil => simp [setEntry, findEntry]
  | cons e rest ih =>
    simp only [setEntry]
    split
    · next h => simp only [findEntry, h]; split <;> simp_all
    · next h => simp only [findEntry, ih]; split <;> split <;> simp_all

/-- What was set is got. -/
@[simp] theorem get?_set_self (t : Table κ α) (k : κ) (a : α) : (t.set k a).get? k = some a := by
  rw [get?_set, if_pos rfl]

/-- Other keys keep what they had. -/
theorem get?_set_of_ne (t : Table κ α) {k k' : κ} (a : α) (h : k ≠ k') :
    (t.set k a).get? k' = t.get? k' := by
  rw [get?_set, if_neg h]

/-- What is got after something was set is that, or what another key had. -/
theorem get?_set_eq_some_iff {t : Table κ α} {k k' : κ} {a b : α} :
    (t.set k a).get? k' = some b ↔ k = k' ∧ b = a ∨ k ≠ k' ∧ t.get? k' = some b := by
  rw [get?_set]
  by_cases h : k = k'
  · simp [h, eq_comm]
  · simp [h]

/-- A removed key has no value, and other keys keep theirs. -/
theorem get?_erase (t : Table κ α) (k k' : κ) :
    (t.erase k).get? k' = if k = k' then none else t.get? k' := by
  simp only [get?, erase]
  induction t.entries with
  | nil => simp [findEntry]
  | cons e rest ih =>
    simp only [List.filter_cons]
    by_cases h : e.1 = k
    · simp only [h, not_true_eq_false, decide_false, Bool.false_eq_true, if_false, ih, findEntry]
      split <;> simp_all
    · simp only [h, not_false_eq_true, decide_true, if_true, findEntry, ih]
      split <;> split <;> simp_all

/-- A value that is got is among the entries, under its key. -/
theorem mem_entries_of_get? {t : Table κ α} {k : κ} {a : α} (h : t.get? k = some a) :
    (k, a) ∈ t.entries := by
  obtain ⟨entries⟩ := t
  simp only [get?] at h ⊢
  induction entries with
  | nil => cases h
  | cons e rest ih =>
    simp only [findEntry] at h
    split at h
    · next heq =>
      cases h
      rw [← heq]
      exact List.mem_cons_self
    · exact List.mem_cons_of_mem e (ih h)

/-- Changing a value changes it under its own key only. -/
theorem get?_modify (t : Table κ α) (k k' : κ) (f : α → α) :
    (t.modify k f).get? k' = if k = k' then (t.get? k).map f else t.get? k' := by
  unfold modify
  split
  · next a h =>
    rw [get?_set]
    split <;> simp_all
  · next h =>
    split <;> simp_all

/-- Other keys keep what they had. -/
theorem get?_modify_of_ne (t : Table κ α) {k k' : κ} (f : α → α) (h : k ≠ k') :
    (t.modify k f).get? k' = t.get? k' := by
  rw [get?_modify, if_neg h]

end Table
end Sidecar
