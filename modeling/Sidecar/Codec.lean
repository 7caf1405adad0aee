import Sidecar.Text.Decimal

/-!
# Codecs

A codec delimits payloads on a byte stream. Three are known: newline-terminated lines, payloads
behind their length as a 32-bit big-endian number, and netstrings (`5:hello,`). Writing puts an
envelope of a prolog and an epilog around the payload, so the payload itself is never changed;
`encode` is that envelope with the payload inside.
-/

namespace Sidecar

/-- The ways of delimiting payloads. -/
inductive Codec where
  /-- A payload and a newline. -/
  | lines
  /-- The length in four bytes, most significant first, and the payload. -/
  | lengthPrefixed
  /-- The length in decimal, a colon, the payload and a comma. -/
  | netstring
  deriving DecidableEq, Repr

namespace Codec

/-- Lines are used where nothing else is asked for. -/
instance : Inhabited Codec := ⟨.lines⟩

/-- All codecs, in the order in which they are listed to a user. -/
def all : List Codec := [.lines, .lengthPrefixed, .netstring]

/-- The name of a codec in configurations and on the command line. -/
def id : Codec → String
  | .lines => "lines"
  | .lengthPrefixed => "length_prefixed_uint32_be"
  | .netstring => "netstring"

/-- What can be wrong with a frame, or with the name of a codec. -/
inductive Fault where
  /-- A netstring began with its colon. -/
  | startsWithColon
  /-- The bytes before a netstring's colon are no length; they are shown as text. -/
  | invalidLength (shown : String)
  /-- The byte after a netstring's payload is not a comma. -/
  | missingComma
  /-- A length does not fit its field. -/
  | lengthOutOfRange (length : Nat)
  /-- A frame does not fit the reader's buffer. -/
  | tokenTooLong (limit : Nat)
  /-- No codec has this name. -/
  | unknown (name : String)
  deriving DecidableEq, Repr

/-- The text of a fault. -/
def Fault.message : Fault → String
  | .startsWithColon => "encountered invalid netstring: netstring starts with colon (':')"
  | .invalidLength shown =>
    s!"encountered invalid netstring: unable to decode length '{shown}'"
  | .missingComma => "encountered invalid netstring: trailing comma-character is missing"
  | .lengthOutOfRange length => s!"number of bytes to read ({length}) exceeds representable range"
  | .tokenTooLong limit => s!"token too long: exceeds max_buffer of {limit} bytes"
  | .unknown name =>
    s!"invalid codec '{name}': expected one of " ++
      "('lines', 'length_prefixed_uint32_be', 'netstring')"

/-- The codec with a name. -/
def ofId (name : String) : Except Fault Codec :=
  match all.find? (·.id == name) with
  | some codec => .ok codec
  | none => .error (.unknown name)

/-- The bytes before and after a payload. -/
structure Envelope where
  /-- Written before the payload, if anything is. -/
  prolog : Option Bytes
  /-- Written after the payload, if anything is. -/
  epilog : Option Bytes
  deriving DecidableEq, Repr

/-- The payload inside its envelope. -/
def Envelope.wrap (e : Envelope) (payload : Bytes) : Bytes :=
  e.prolog.getD [] ++ payload ++ e.epilog.getD []

/-- The number of bytes in a binary length. -/
def lengthBytes : Nat := 4

/-- A number below 2^32 in four bytes, most significant first. -/
def bigEndian (n : Nat) : Bytes :=
  [UInt8.ofNat (n / 0x100_0000), UInt8.ofNat (n / 0x1_0000), UInt8.ofNat (n / 0x100),
    UInt8.ofNat n]

/-- The number that bytes denote, most significant first. -/
def ofBigEndian (b : Bytes) : Nat := b.foldl (fun acc d ↦ 256 * acc + d.toNat) 0

/-- The envelope of a payload of a given length. Only the binary length can be too small for it. -/
def envelope (codec : Codec) (length : Nat) : Except Fault Envelope :=
  match codec with
  | .lines => .ok ⟨none, some [Bytes.newline]⟩
  | .lengthPrefixed =>
    if length < 0x1_0000_0000 then .ok ⟨some (bigEndian length), none⟩
    else .error (.lengthOutOfRange length)
  | .netstring => .ok ⟨some (Decimal.digits length ++ [Bytes.colon]), some [Bytes.comma]⟩

/-- The frame that carries a payload. -/
def encode (codec : Codec) (payload : Bytes) : Except Fault Bytes :=
  (codec.envelope payload.length).map (·.wrap payload)

/-- The four bytes of a length below 2^32 denote it. -/
theorem ofBigEndian_bigEndian {n : Nat} (h : n < 0x1_0000_0000) :
    ofBigEndian (bigEndian n) = n := by
  simp only [ofBigEndian, bigEndian, List.foldl_cons, List.foldl_nil, UInt8.toNat_ofNat']
  omega

/-- A binary length has four bytes. -/
theorem length_bigEndian (n : Nat) : (bigEndian n).length = lengthBytes := rfl

/-- Every codec is found under its name. -/
theorem ofId_id (codec : Codec) : ofId codec.id = .ok codec := by
  cases codec <;> rfl

end Codec
end Sidecar
