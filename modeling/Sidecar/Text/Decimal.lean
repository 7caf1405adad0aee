import Sidecar.Bytes

/-!
# Decimal numerals in ASCII

`digits` writes a natural number without superfluous leading zeros and `value` reads any run of
digits. Reading undoes writing (`value_digits`), and what is written is a non-empty run of digits
(`digits_ne_nil`, `isDigit_of_mem_digits`).
-/

namespace Sidecar.Decimal

/-- Whether a byte is an ASCII digit. -/
def isDigit (b : UInt8) : Bool := 0x30 ≤ b && b ≤ 0x39

/-- The digit of a number below ten. -/
def digit (n : Nat) : UInt8 := UInt8.ofNat (0x30 + n)

/-- The number that a run of digits denotes; leading zeros count for nothing. -/
def value (ds : Bytes) : Nat := ds.foldl (fun acc d ↦ 10 * acc + (d.toNat - 0x30)) 0

/-- The shortest run of digits that denotes a number. -/
def digits (n : Nat) : Bytes :=
  if n < 10 then [digit n] else digits (n / 10) ++ [digit (n % 10)]
termination_by n
decreasing_by omega

/-- Reading one more digit at the end. -/
theorem value_concat (ds : Bytes) (d : UInt8) :
    value (ds ++ [d]) = 10 * value ds + (d.toNat - 0x30) := by
  simp [value]

/-- The digit of a number below ten has that number's code. -/
theorem toNat_digit {n : Nat} (h : n < 10) : (digit n).toNat = 0x30 + n := by
  simp only [digit, UInt8.toNat_ofNat']
  omega

/-- The digit of a number below ten is a digit. -/
theorem isDigit_digit {n : Nat} (h : n < 10) : isDigit (digit n) = true := by
  have := toNat_digit h
  simp only [isDigit, Bool.and_eq_true, decide_eq_true_eq, UInt8.le_iff_toNat_le, this]
  exact ⟨Nat.le_add_right .., by change 0x30 + n ≤ 57; omega⟩

/-- Reading undoes writing. -/
theorem value_digits (n : Nat) : value (digits n) = n := by
  induction n using digits.induct with
  | case1 n h =>
    rw [digits, if_pos h]
    have := toNat_digit h
    simp only [value, List.foldl_cons, List.foldl_nil, this]
    omega
  | case2 n h ih =>
    rw [digits, if_neg h, value_concat, ih, toNat_digit (Nat.mod_lt _ (by decide))]
    omega

/-- A number is written with at least one digit. -/
theorem digits_ne_nil (n : Nat) : digits n ≠ [] := by
  rw [digits]
  split <;> simp

/-- A number is written with digits only. -/
theorem isDigit_of_mem_digits {n : Nat} {d : UInt8} (h : d ∈ digits n) : isDigit d = true := by
  induction n using digits.induct with
  | case1 n hn =>
    rw [digits, if_pos hn, List.mem_singleton] at h
    exact h ▸ isDigit_digit hn
  | case2 n hn ih =>
    rw [digits, if_neg hn, List.mem_append, List.mem_singleton] at h
    rcases h with h | h
    · exact ih h
    · exact h ▸ isDigit_digit (Nat.mod_lt _ (by decide))

end Sidecar.Decimal
