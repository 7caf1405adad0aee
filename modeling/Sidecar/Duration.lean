/-!
# Durations

A duration is a number of whole seconds and of nanoseconds below one second. It is shown in the
largest of the units s, ms, µs and ns that does not exceed it, with as many decimal places as it
takes and no trailing zeros. Milliseconds are counted by dropping what is left over, and stored in
a 64-bit word.
-/

namespace Sidecar

/-- A length of time. -/
structure Duration where
  seconds : UInt64
  /-- The nanoseconds beyond the whole seconds. -/
  nanos : Nat
  nanos_lt : nanos < 1_000_000_000 := by omega
  deriving DecidableEq, Repr

namespace Duration

/-- The whole length in nanoseconds. -/
def toNanos (d : Duration) : Nat := d.seconds.toNat * 1_000_000_000 + d.nanos

/-- The whole milliseconds. -/
def toMillis (d : Duration) : Nat := d.seconds.toNat * 1000 + d.nanos / 1_000_000

/-- The whole milliseconds as a 64-bit word; higher bits are lost. -/
def millisWord (d : Duration) : UInt64 := UInt64.ofNat d.toMillis

/-- So many seconds and nanoseconds, the seconds in a 64-bit word. -/
def ofParts (seconds nanos : Nat) : Duration :=
  ⟨UInt64.ofNat (seconds + nanos / 1_000_000_000), nanos % 1_000_000_000,
    Nat.mod_lt _ (by decide)⟩

/-- So many nanoseconds. -/
def ofNanos (n : Nat) : Duration := ofParts 0 n

/-- So many microseconds. -/
def ofMicros (n : Nat) : Duration := ofNanos (n * 1000)

/-- So many milliseconds. -/
def ofMillis (n : Nat) : Duration := ofNanos (n * 1_000_000)

/-- The decimal places of a fraction, without trailing zeros: `part / 10 ^ places`. -/
def decimals (places part : Nat) : List Char :=
  let ds := Nat.toDigits 10 part
  let padded := List.replicate (places - ds.length) '0' ++ ds
  (padded.reverse.dropWhile (· == '0')).reverse

/-- A number of units of `10 ^ places` each, as a decimal fraction. -/
def showIn (places n : Nat) (unit : String) : String :=
  let fraction := decimals places (n % Nat.pow 10 places)
  let whole := toString (n / Nat.pow 10 places)
  if fraction = [] then whole ++ unit else whole ++ "." ++ String.ofList fraction ++ unit

/-- The text of a duration. -/
def render (d : Duration) : String :=
  let n := d.toNanos
  if 1_000_000_000 ≤ n then showIn 9 n "s"
  else if 1_000_000 ≤ n then showIn 6 n "ms"
  else if 1_000 ≤ n then showIn 3 n "µs"
  else showIn 0 n "ns"

end Duration
end Sidecar
