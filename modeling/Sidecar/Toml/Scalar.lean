import Sidecar.Text.Hexadecimal
import Sidecar.Toml.Node

/-!
# TOML words

A number, date, time or truth value is one word, except that a date and its time may have a blank
between them. A word is classified as a whole: no character of the class of words can follow a
value.
-/

namespace Sidecar.Toml

/-- Whether a character may stand in a word. -/
def isWordChar (c : Char) : Bool :=
  c.isAlphanum || c = '_' || c = '+' || c = '-' || c = '.' || c = ':'

/-- Digits in groups: no underscore but between two digits. -/
def ungroup? (isDigit : Char → Bool) : List Char → Option (List Char)
  | [] => none
  | [d] => if isDigit d then some [d] else none
  | d :: '_' :: ds => if isDigit d then (ungroup? isDigit ds).map (d :: ·) else none
  | d :: ds => if isDigit d then (ungroup? isDigit ds).map (d :: ·) else none

/-- The number of digits of some base below seventeen. -/
def ofDigits (base : Nat) (ds : List Char) : Nat :=
  ds.foldl (fun acc d ↦ base * acc + (Hexadecimal.value? d).getD 0) 0

/-- A word without its sign, and whether that was a minus. -/
def unsign : List Char → Bool × List Char
  | '+' :: cs => (false, cs)
  | '-' :: cs => (true, cs)
  | cs => (false, cs)

/-- Decimal digits without a superfluous zero in front. -/
def whole? (cs : List Char) : Option (List Char) := do
  let ds ← ungroup? Char.isDigit cs
  if ds.head? = some '0' ∧ ds.length ≠ 1 then none else some ds

/-- Digits of a base as a number below 2^63. -/
def based? (base : Nat) (cs : List Char) : Option Int := do
  let isDigit (c : Char) : Bool := match Hexadecimal.value? c with
    | some v => v < base
    | none => false
  let n := ofDigits base (← ungroup? isDigit cs)
  if n < 0x8000_0000_0000_0000 then some n else none

/-- A signed 64-bit integer. -/
def integer? (word : List Char) : Option Int :=
  match word with
  | '0' :: 'x' :: cs => based? 16 cs
  | '0' :: 'o' :: cs => based? 8 cs
  | '0' :: 'b' :: cs => based? 2 cs
  | _ => do
    let (negative, cs) := unsign word
    let n := ofDigits 10 (← whole? cs)
    if negative then if n ≤ 0x8000_0000_0000_0000 then some (-n) else none
    else if n < 0x8000_0000_0000_0000 then some n else none

/-- The floating point number nearest to some digits times a power of ten. -/
def decimalFloat (ds : List Char) (exponent : Int) : Float :=
  let n := ofDigits 10 ds
  let magnitude := (Nat.toDigits 10 n).length + exponent
  if n = 0 ∨ magnitude < -400 then 0
  else if 400 < magnitude then 1 / 0
  else if exponent < 0 then Float.ofScientific n true exponent.natAbs
  else Float.ofScientific n false exponent.natAbs

/-- The digits before and after a point, if there is one. -/
def mantissa? (cs : List Char) : Option (List Char × Option (List Char)) := do
  let before ← whole? (cs.takeWhile (· ≠ '.'))
  match cs.dropWhile (· ≠ '.') with
  | _ :: after => some (before, some (← ungroup? Char.isDigit after))
  | [] => some (before, none)

/-- The power of ten after an `e`. -/
def power? (cs : List Char) : Option Int := do
  let (negative, cs) := unsign cs
  let n := ofDigits 10 (← ungroup? Char.isDigit cs)
  some (if negative then -n else n)

/-- A number with a fraction or an exponent. One too large is refused, unless it is negative. -/
def float? (word : List Char) : Option Float := do
  let (negative, cs) := unsign word
  let isMark (c : Char) : Bool := c = 'e' || c = 'E'
  let (before, after) ← mantissa? (cs.takeWhile (!isMark ·))
  let power ← match cs.dropWhile (!isMark ·) with
    | _ :: ds => (power? ds).map some
    | [] => some none
  if after.isNone ∧ power.isNone then none
  else
    let fraction := after.getD []
    let x := decimalFloat (before ++ fraction) (power.getD 0 - fraction.length)
    if negative then some (-x) else if x.isInf then none else some x

/-- An infinity or what is no number. -/
def special? (word : List Char) : Option Float :=
  let (negative, cs) := unsign word
  let signed (x : Float) : Float := if negative then -x else x
  if cs = ['i', 'n', 'f'] then some (signed (1 / 0))
  else if cs = ['n', 'a', 'n'] then some (signed (0 / 0))
  else none

/-- Two digits as a number within bounds. -/
def twoDigits? (least greatest : Nat) (a b : Char) : Option Nat :=
  if a.isDigit ∧ b.isDigit ∧ least ≤ ofDigits 10 [a, b] ∧ ofDigits 10 [a, b] ≤ greatest then
    some (ofDigits 10 [a, b])
  else none

/-- The number of days of a month. -/
def daysInMonth (year month : Nat) : Nat :=
  if month = 2 then
    if year % 4 = 0 ∧ (year % 100 ≠ 0 ∨ year % 400 = 0) then 29 else 28
  else if month ∈ [4, 6, 9, 11] then 30
  else 31

/-- The word after a date. -/
def afterDate? : List Char → Option (List Char)
  | a :: b :: c :: d :: '-' :: e :: f :: '-' :: g :: h :: rest => do
    if ¬ [a, b, c, d].all Char.isDigit then none
    else
      let month ← twoDigits? 1 12 e f
      let _ ← twoDigits? 1 (daysInMonth (ofDigits 10 [a, b, c, d]) month) g h
      some rest
  | _ => none

/-- The word after a time of day. -/
def afterTime? : List Char → Option (List Char)
  | a :: b :: ':' :: c :: d :: ':' :: e :: f :: rest => do
    let _ ← twoDigits? 0 23 a b
    let _ ← twoDigits? 0 59 c d
    let _ ← twoDigits? 0 60 e f
    match rest with
    | '.' :: g :: rest => if g.isDigit then some (rest.dropWhile Char.isDigit) else none
    | _ => some rest
  | _ => none

/-- Whether a word is nothing, or the distance of a time from universal time. -/
def isOffset : List Char → Bool
  | [] => true
  | ['Z'] => true
  | ['z'] => true
  | [sign, a, b, ':', c, d] =>
    (sign = '+' || sign = '-') && (twoDigits? 0 23 a b).isSome && (twoDigits? 0 59 c d).isSome
  | _ => false

/-- Whether a word is a time of day that may have an offset. -/
def isZoned (cs : List Char) : Bool :=
  match afterTime? cs with
  | some rest => isOffset rest
  | none => false

/-- Whether a word is a date, a time, or both. -/
def isMoment (word : List Char) : Bool :=
  match afterDate? word with
  | some [] => true
  | some (mark :: cs) => (mark = 'T' || mark = 't') && isZoned cs
  | none => afterTime? word == some []

/-- What a word denotes. -/
def Scalar.ofWord? (word : List Char) : Option Scalar :=
  if word = ['t', 'r', 'u', 'e'] then some (.bool true)
  else if word = ['f', 'a', 'l', 's', 'e'] then some (.bool false)
  else if isMoment word then some .moment
  else
    match integer? word, float? word, special? word with
    | some n, _, _ => some (.integer n)
    | none, some x, _ => some (.float x)
    | none, none, some x => some (.float x)
    | none, none, none => none

/-- Reads a word, and the time that follows a date after one blank. -/
def readWord (cs : List Char) : Option (Scalar × List Char) :=
  let word := cs.takeWhile isWordChar
  let rest := cs.dropWhile isWordChar
  match afterDate? word, rest with
  | some [], ' ' :: d :: rest =>
    if d.isDigit then
      let time := (d :: rest).takeWhile isWordChar
      if isZoned time then some (.moment, (d :: rest).dropWhile isWordChar) else none
    else some (.moment, ' ' :: d :: rest)
  | _, _ => (Scalar.ofWord? word).map fun s ↦ (s, rest)

end Sidecar.Toml
