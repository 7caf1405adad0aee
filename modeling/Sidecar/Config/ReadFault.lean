import Sidecar.Config.Field
import Sidecar.Text.Quoted

/-!
# What can be wrong with the text of a configuration

A text that is not well formed is one fault, whatever is wrong with it. The other faults are those
of a well-formed text: a key or a name that is not known, a field given twice, and a value of the
wrong kind or out of range.
-/

namespace Sidecar.Config

/-- What stands where a value is wanted. -/
inductive Found where
  | null
  | bool (b : Bool)
  | integer (n : Int)
  /-- A floating point number, as it is shown. -/
  | float (shown : String)
  | text (s : String)
  | sequence
  | map
  deriving DecidableEq, Repr

/-- What is found, in words. -/
def Found.describe : Found → String
  | .null => "null"
  | .bool b => s!"boolean `{b}`"
  | .integer n => s!"integer `{n}`"
  | .float shown => s!"floating point `{shown}`"
  | .text s => s!"string {Text.quoted s}"
  | .sequence => "sequence"
  | .map => "map"

/-- What is wanted. -/
inductive Wanted where
  | text
  | sequence
  | index
  | size
  | millis
  | nothing
  | codecName
  | config
  deriving DecidableEq, Repr

/-- What is wanted, in words. -/
def Wanted.describe : Wanted → String
  | .text => "a string"
  | .sequence => "a sequence"
  | .index => "isize"
  | .size => "usize"
  | .millis => "u64"
  | .nothing => "unit"
  | .codecName => "variant identifier"
  | .config => "struct SubprocessConfig"

/-- What can be wrong with the text of a configuration. -/
inductive ReadFault where
  /-- The text does not follow its grammar. -/
  | malformed
  /-- A key is not the key of a field. -/
  | unknownField (key : String)
  /-- A field is given a second time. -/
  | duplicateField (field : Field)
  /-- A name is not the name of a codec. -/
  | unknownCodec (name : String)
  /-- A value is not of the kind that is wanted. -/
  | wrongKind (found : Found) (wanted : Wanted)
  /-- A number is of the right kind and out of range. -/
  | outOfRange (n : Int) (wanted : Wanted)
  deriving DecidableEq, Repr

/-- Names in a list, each between backquotes. -/
def quotedNames (names : List String) : String := ", ".intercalate (names.map fun n ↦ s!"`{n}`")

/-- The text of a fault. -/
def ReadFault.message : ReadFault → String
  | .malformed => "<syntax>"
  | .unknownField key =>
    s!"unknown field `{key}`, expected one of {quotedNames (Field.all.map Field.key)}"
  | .duplicateField field => s!"duplicate field `{field.key}`"
  | .unknownCodec name =>
    s!"unknown variant `{name}`, expected one of {quotedNames (Codec.all.map Codec.id)}"
  | .wrongKind found wanted => s!"invalid type: {found.describe}, expected {wanted.describe}"
  | .outOfRange n wanted => s!"invalid value: integer `{n}`, expected {wanted.describe}"

/-- The outcome of reading a part of a configuration. -/
abbrev Read := Except ReadFault

namespace Found

/-- Reads a text. -/
def asText : Found → Read String
  | .text s => .ok s
  | found => .error (.wrongKind found .text)

/-- Reads a signed 64-bit number. -/
def asIndex : Found → Read Int64
  | .integer n =>
    if -0x8000_0000_0000_0000 ≤ n ∧ n < 0x8000_0000_0000_0000 then .ok (Int64.ofInt n)
    else .error (.outOfRange n .index)
  | found => .error (.wrongKind found .index)

/-- Reads an unsigned 64-bit number. -/
def asWord (wanted : Wanted) : Found → Read UInt64
  | .integer n =>
    if 0 ≤ n ∧ n < 0x1_0000_0000_0000_0000 then .ok (UInt64.ofNat n.toNat)
    else .error (.outOfRange n wanted)
  | found => .error (.wrongKind found wanted)

end Found

/-- The codec with a name. -/
def readCodecName (name : String) : Read Codec :=
  match Codec.ofId name with
  | .ok codec => .ok codec
  | .error _ => .error (.unknownCodec name)

end Sidecar.Config
