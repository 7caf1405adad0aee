/-!
# The shortest decimal of a floating point number

A finite number stands for every real that rounds to it. `Shortest.ofFloat` finds, among the
decimals in that interval with the fewest digits, the one nearest to the number. For one, two, …
seventeen digits it tries the two neighbours of the number on the grid of such decimals, in exact
arithmetic. `render` writes the result with a decimal point or with an exponent, as a notation
says.
-/

namespace Sidecar

/-- A decimal: digits without trailing zeros, times a power of ten. -/
structure Shortest where
  digits : Nat
  exponent : Int
  deriving DecidableEq, Repr

namespace Shortest

/-- A positive finite number and the ends of its interval, all over one denominator. -/
structure Interval where
  low : Nat
  value : Nat
  high : Nat
  denominator : Nat
  /-- Whether the ends round to the number too. -/
  closed : Bool

/-- The reals that round to a finite number with the given bits, the sign left out. -/
def Interval.ofBits (bits : UInt64) : Interval :=
  let fraction := (bits &&& 0xfffffffffffff).toNat
  let biased := ((bits >>> 52) &&& 0x7ff).toNat
  let m := if biased = 0 then fraction else fraction + 0x10_0000_0000_0000
  let q : Int := (if biased = 0 then (1 : Int) else biased) - 1075 - 2
  let below := if fraction = 0 ∧ 1 < biased then 1 else 2
  let scale := if 0 ≤ q then Nat.pow 2 q.toNat else 1
  { low := (4 * m - below) * scale
    value := 4 * m * scale
    high := (4 * m + 2) * scale
    denominator := if 0 ≤ q then 1 else Nat.pow 2 (-q).toNat
    closed := m % 2 = 0 }

/-- The number of decimal digits. -/
def digitCount (n : Nat) : Nat := (Nat.toDigits 10 n).length

/-- How many decimal places it takes to reach one. -/
def leadingPlaces (value denominator : Nat) : Nat → Nat
  | 0 => 0
  | fuel + 1 =>
    if denominator ≤ value then 0 else leadingPlaces (10 * value) denominator fuel + 1

/-- The power of ten of the first digit. -/
def Interval.magnitude (i : Interval) : Int :=
  if i.denominator ≤ i.value then digitCount (i.value / i.denominator) - 1
  else -(leadingPlaces i.value i.denominator 400 : Int)

/-- Whether a decimal rounds to the number. -/
def Interval.holds (i : Interval) (digits : Nat) (exponent : Int) : Bool :=
  let n := digits * i.denominator * Nat.pow 10 exponent.toNat
  let unit := Nat.pow 10 (-exponent).toNat
  if i.closed then i.low * unit ≤ n && n ≤ i.high * unit
  else i.low * unit < n && n < i.high * unit

/-- The distance from a decimal, over the common denominator of both. -/
def Interval.distance (i : Interval) (digits : Nat) (exponent : Int) : Nat :=
  let n := digits * i.denominator * Nat.pow 10 exponent.toNat
  let v := i.value * Nat.pow 10 (-exponent).toNat
  max n v - min n v

/-- The neighbour of the number with this many digits that rounds to it, the nearer of two. -/
def Interval.atDigits (i : Interval) (count : Nat) : Option Shortest :=
  let exponent := i.magnitude - count + 1
  let down := i.value * Nat.pow 10 (-exponent).toNat / (i.denominator * Nat.pow 10 exponent.toNat)
  let up := down + 1
  match i.holds down exponent, i.holds up exponent with
  | true, true =>
    some ⟨if i.distance down exponent ≤ i.distance up exponent then down else up, exponent⟩
  | true, false => some ⟨down, exponent⟩
  | false, true => some ⟨up, exponent⟩
  | false, false => none

/-- Moves trailing zeros into the exponent. -/
def trim (s : Shortest) : Nat → Shortest
  | 0 => s
  | fuel + 1 =>
    if s.digits ≠ 0 ∧ s.digits % 10 = 0 then trim ⟨s.digits / 10, s.exponent + 1⟩ fuel else s

/-- The shortest decimal that rounds to a number, its sign left out. -/
def ofFloat (x : Float) : Shortest :=
  let i := Interval.ofBits x.toBits
  if i.value = 0 then ⟨0, 0⟩
  else
    match (List.range' 1 17).findSome? i.atDigits with
    | some s => s.trim 20
    | none => ⟨0, 0⟩

/-- Which powers of ten of the first digit are written without an exponent. -/
abbrev Notation := Int → Bool

/-- Every number is written without an exponent. -/
def Notation.plain : Notation := fun _ ↦ true

/-- Numbers from 1e-5 up to below 1e16 are written without an exponent. -/
def Notation.compact : Notation := fun magnitude ↦ -5 ≤ magnitude && magnitude ≤ 15

/-- At least two digits of an exponent. -/
def exponentDigits (n : Nat) : List Char :=
  let ds := Nat.toDigits 10 n
  if ds.length < 2 then '0' :: ds else ds

/-- The digits with a decimal point after the first `point` of them, or before all. -/
def positional (ds : List Char) (point : Int) : List Char :=
  if point ≤ 0 then '0' :: '.' :: List.replicate (-point).toNat '0' ++ ds
  else if ds.length ≤ point.toNat then
    ds ++ List.replicate (point.toNat - ds.length) '0' ++ ['.', '0']
  else ds.take point.toNat ++ '.' :: ds.drop point.toNat

/-- The digits with a point after the first of them, and an exponent with its sign. -/
def scientific (ds : List Char) (magnitude : Int) : List Char :=
  let mantissa := match ds with
    | [d] => [d]
    | d :: rest => d :: '.' :: rest
    | [] => []
  mantissa ++ ['e', if magnitude < 0 then '-' else '+'] ++ exponentDigits magnitude.natAbs

/-- The text of a floating point number; a whole one shows that it is one by its `.0`. -/
def render (style : Notation) (x : Float) : String :=
  if x.isNaN then "NaN"
  else
    let sign := if x.toBits >>> 63 = 1 then ['-'] else []
    if x.isInf then String.ofList (sign ++ ['i', 'n', 'f'])
    else
      let s := ofFloat x
      let ds := Nat.toDigits 10 s.digits
      let point : Int := ds.length + s.exponent
      let body :=
        if s.digits = 0 then ['0', '.', '0']
        else if style (point - 1) then positional ds point
        else scientific ds (point - 1)
      String.ofList (sign ++ body)

end Shortest
end Sidecar
