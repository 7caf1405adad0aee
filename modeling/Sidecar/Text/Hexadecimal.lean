/-!
# Hexadecimal digits

Digits are written in lower case and read in either case. `value?_digit` says that what is written
is read back.
-/

namespace Sidecar.Hexadecimal

/-- The digit of a number below sixteen. -/
def digit (n : Nat) : Char :=
  if n < 10 then Char.ofNat (0x30 + n) else Char.ofNat (0x57 + n)

/-- The value of a digit. -/
def value? (c : Char) : Option Nat :=
  if '0' ≤ c ∧ c ≤ '9' then some (c.toNat - 0x30)
  else if 'a' ≤ c ∧ c ≤ 'f' then some (c.toNat - 0x57)
  else if 'A' ≤ c ∧ c ≤ 'F' then some (c.toNat - 0x37)
  else none

/-- The number that digits denote; each of them must be a digit. -/
def number? (ds : List Char) : Option Nat :=
  ds.foldlM (fun acc d ↦ (value? d).map (16 * acc + ·)) 0

/-- The character with a number, if there is one. -/
def char? (n : Nat) : Option Char := if n.isValidChar then some (Char.ofNat n) else none

/-- What is written is read back. -/
theorem value?_digit : ∀ {n : Nat}, n < 16 → value? (digit n) = some n := by
  decide

end Sidecar.Hexadecimal
