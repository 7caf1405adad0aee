import Sidecar.Text.Shortest

/-!
# JSON numbers

A number without fraction and exponent is an integer when it fits 64 bits, unsigned or signed as
its sign says. Every other number, and minus zero, is a floating point number: its first digits
that fit an unsigned 64-bit word are scaled by a power of ten in floating point arithmetic, and
later digits count only for their place. A number too large for that is refused.
-/

namespace Sidecar.Json

/-- A number as it is read. -/
inductive Number where
  /-- An integer from -2^63 to 2^64 - 1. -/
  | integer (n : Int)
  /-- A number that has only a floating point value. -/
  | float (x : Float)

/-- Whether a character is an ASCII digit. -/
def isDigit (c : Char) : Bool := '0' ≤ c && c ≤ '9'

/-- The value of a digit. -/
def digitValue (c : Char) : Nat := c.toNat - '0'.toNat

/-- The number that digits denote, read after a number already read. -/
def natOfDigits (start : Nat) (ds : List Char) : Nat :=
  ds.foldl (fun acc d ↦ 10 * acc + digitValue d) start

/-- The largest unsigned 64-bit word. -/
def maxWord : Nat := 0xffff_ffff_ffff_ffff

/-- Reads digits for as long as the number fits a word; the rest is left over. -/
def significand : Nat → List Char → Nat × List Char
  | acc, [] => (acc, [])
  | acc, d :: ds =>
    let next := 10 * acc + digitValue d
    if next ≤ maxWord then significand next ds else (acc, d :: ds)

/-- A power of ten as a floating point number. -/
def powerOfTen (n : Nat) : Float := Float.ofScientific 1 false n

/-- Divides by a power of ten, in steps of at most 10^308. -/
def scaleDown (x : Float) (n : Nat) : Float :=
  if n ≤ 308 then x / powerOfTen n
  else if x == 0 then x
  else scaleDown (x / powerOfTen 308) (n - 308)
termination_by n
decreasing_by omega

/-- A significand times a power of ten, unless it is too large. -/
def scaled (significand : Nat) (exponent : Int) : Option Float :=
  let x := (UInt64.ofNat significand).toFloat
  if exponent < 0 then some (scaleDown x exponent.natAbs)
  else if exponent ≤ 308 then
    let y := x * powerOfTen exponent.natAbs
    if y.isInf then none else some y
  else if significand = 0 then some x
  else none

/-- The largest exponent that is counted. -/
def maxExponent : Nat := 0x7fff_ffff

/-- An exponent beyond what is counted, or any power of ten, keeps to the 32-bit range. -/
def clampExponent (n : Int) : Int := max (-0x8000_0000) (min n maxExponent)

/-- The parts of a number: its digits before and after the point, and its exponent. -/
structure Parts where
  whole : List Char
  fraction : Option (List Char)
  exponent : Option (Bool × List Char)

/-- The floating point value of a number, its sign left out. -/
def Parts.toFloat (p : Parts) : Option Float :=
  let (s, dropped) := significand 0 p.whole
  let (s, unread) := significand s (p.fraction.getD [])
  let places : Int := dropped.length - ((p.fraction.getD []).length - unread.length : Nat)
  match p.exponent with
  | none => scaled s places
  | some (negative, ds) =>
    let n := natOfDigits 0 ds
    if maxExponent < n then if s ≠ 0 ∧ !negative then none else some 0.0
    else scaled s (clampExponent (if negative then places - n else places + n))

/-- The value of a number with this sign. -/
def Parts.toNumber (p : Parts) (negative : Bool) : Option Number :=
  let n := natOfDigits 0 p.whole
  if p.fraction.isNone ∧ p.exponent.isNone ∧ !negative ∧ n ≤ maxWord then some (.integer n)
  else if p.fraction.isNone ∧ p.exponent.isNone ∧ negative ∧ 0 < n ∧ n ≤ 0x8000_0000_0000_0000 then
    some (.integer (-n))
  else p.toFloat.map fun x ↦ .float (if negative then -x else x)

/-- Reads the digits after a decimal point, if there is one. -/
def readFraction : List Char → Option (Option (List Char) × List Char)
  | '.' :: cs =>
    let ds := cs.takeWhile isDigit
    if ds = [] then none else some (some ds, cs.dropWhile isDigit)
  | cs => some (none, cs)

/-- Reads an exponent, if there is one. -/
def readExponent (cs : List Char) : Option (Option (Bool × List Char) × List Char) :=
  let digits (negative : Bool) (cs : List Char) :=
    let ds := cs.takeWhile isDigit
    if ds = [] then none else some (some (negative, ds), cs.dropWhile isDigit)
  match cs with
  | c :: cs =>
    if c = 'e' ∨ c = 'E' then
      match cs with
      | '+' :: cs => digits false cs
      | '-' :: cs => digits true cs
      | cs => digits false cs
    else some (none, c :: cs)
  | [] => some (none, [])

/-- Reads a number without its sign. A zero takes no digit after it before the point. -/
def readNumber (negative : Bool) (cs : List Char) : Option (Number × List Char) :=
  let whole := cs.takeWhile isDigit
  if whole = [] ∨ (whole.head? = some '0' ∧ whole.length ≠ 1) then none
  else
    match readFraction (cs.dropWhile isDigit) with
    | none => none
    | some (fraction, rest) =>
      match readExponent rest with
      | none => none
      | some (exponent, rest) =>
        (Parts.toNumber ⟨whole, fraction, exponent⟩ negative).map fun n ↦ (n, rest)

private theorem length_takeWhile_add_dropWhile (p : Char → Bool) (cs : List Char) :
    (cs.takeWhile p).length + (cs.dropWhile p).length = cs.length := by
  rw [← List.length_append, List.takeWhile_append_dropWhile]

private theorem dropWhile_length_le (p : Char → Bool) (cs : List Char) :
    (cs.dropWhile p).length ≤ cs.length := by
  have := length_takeWhile_add_dropWhile p cs
  omega

private theorem readFraction_length {cs rest : List Char} {ds : Option (List Char)}
    (h : readFraction cs = some (ds, rest)) : rest.length ≤ cs.length := by
  unfold readFraction at h
  split at h
  · next cs =>
    simp only at h
    split at h
    · cases h
    · simp only [Option.some.injEq, Prod.mk.injEq] at h
      have := dropWhile_length_le isDigit cs
      simp only [← h.2, List.length_cons]
      omega
  · simp only [Option.some.injEq, Prod.mk.injEq] at h
    simp [← h.2]

private theorem readExponent_length {cs rest : List Char} {e : Option (Bool × List Char)}
    (h : readExponent cs = some (e, rest)) : rest.length ≤ cs.length := by
  have bound (negative : Bool) (cs : List Char)
      (h : (if cs.takeWhile isDigit = [] then none
        else some (some (negative, cs.takeWhile isDigit), cs.dropWhile isDigit)) =
          some (e, rest)) : rest.length ≤ cs.length := by
    split at h
    · cases h
    · simp only [Option.some.injEq, Prod.mk.injEq] at h
      exact h.2 ▸ dropWhile_length_le isDigit cs
  simp only [readExponent] at h
  split at h
  · split at h
    · split at h <;> have := bound _ _ h <;> simp only [List.length_cons] <;> omega
    · simp only [Option.some.injEq, Prod.mk.injEq] at h
      simp [← h.2]
  · simp only [Option.some.injEq, Prod.mk.injEq] at h
    simp [← h.2]

/-- A number takes at least one character of the text. -/
theorem readNumber_length {negative : Bool} {cs rest : List Char} {n : Number}
    (h : readNumber negative cs = some (n, rest)) : rest.length < cs.length := by
  simp only [readNumber] at h
  split at h
  · cases h
  · next hw =>
    split at h
    · cases h
    · next hf =>
      split at h
      · cases h
      · next he =>
        obtain ⟨_, -, hr⟩ := Option.map_eq_some_iff.1 h
        simp only [Prod.mk.injEq] at hr
        have h1 := length_takeWhile_add_dropWhile isDigit cs
        have h2 := readFraction_length hf
        have h3 := readExponent_length he
        have h4 : 0 < (cs.takeWhile isDigit).length :=
          List.length_pos_iff.2 fun h0 ↦ hw (.inl h0)
        rw [← hr.2]
        omega

end Sidecar.Json
