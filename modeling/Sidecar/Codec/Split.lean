import Sidecar.Codec
import Sidecar.Text.Utf8

/-!
# Splitting tokens off a stream

`Codec.split` looks at the bytes received so far and answers with the first token and the number of
bytes that its frame takes, with `none` when more bytes are needed, or with a fault that no further
byte can mend. At the end of the stream only lines have something left to give: an unterminated
last line. An incomplete sized frame is never a token.
-/

namespace Sidecar.Codec

/-- The first line and the bytes it takes, its terminator included. -/
def splitLine (data : Bytes) (atEnd : Bool) : Option (Nat × Bytes) :=
  if Bytes.newline ∈ data then
    let line := data.takeWhile (· != Bytes.newline)
    some (line.length + 1, Bytes.dropCarriageReturn line)
  else if atEnd ∧ data ≠ [] then some (data.length, Bytes.dropCarriageReturn data)
  else none

/-- The first payload behind a binary length. A length of four bytes ends a frame far below 2^63, so
that this codec, unlike netstrings, has no length that is out of range. -/
def splitLengthPrefixed (data : Bytes) (atEnd : Bool) : Option (Nat × Bytes) :=
  if atEnd ∨ data.length < lengthBytes then none
  else
    let stop := lengthBytes + ofBigEndian (data.take lengthBytes)
    if stop ≤ data.length then some (stop, (data.take stop).drop lengthBytes) else none

/-- The greatest length that a netstring may declare. -/
def maxDeclared : Nat := 0x7fff_ffff_ffff_ffff

/-- The length that the bytes before a colon declare. -/
def declaredLength (ds : Bytes) : Except Fault Nat :=
  if ds.all Decimal.isDigit ∧ Decimal.value ds ≤ maxDeclared then .ok (Decimal.value ds)
  else .error (.invalidLength (Utf8.decodeLossy ds))

/-- The first netstring. -/
def splitNetstring (data : Bytes) (atEnd : Bool) : Except Fault (Option (Nat × Bytes)) :=
  if atEnd ∨ Bytes.colon ∉ data then .ok none
  else
    let ds := data.takeWhile (· != Bytes.colon)
    if ds = [] then .error .startsWithColon
    else do
      let declared ← declaredLength ds
      let start := ds.length + 1
      let stop := start + declared
      if 0x1_0000_0000_0000_0000 ≤ stop then .error (.lengthOutOfRange declared)
      else
        match data[stop]? with
        | none => .ok none
        | some b =>
          if b = Bytes.comma then .ok (some (stop + 1, (data.take stop).drop start))
          else .error .missingComma

/-- The first token of the data and the number of bytes its frame takes. -/
def split (codec : Codec) (data : Bytes) (atEnd : Bool) : Except Fault (Option (Nat × Bytes)) :=
  match codec with
  | .lines => .ok (splitLine data atEnd)
  | .lengthPrefixed => .ok (splitLengthPrefixed data atEnd)
  | .netstring => splitNetstring data atEnd

end Sidecar.Codec
