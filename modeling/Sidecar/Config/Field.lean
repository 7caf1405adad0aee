import Sidecar.Config

/-!
# Fields of a configuration

The fields as data, so that readers and printers of configurations can treat them alike. `get` and
`set` obey the laws of a record: what was set is got (`get_set`), other fields stay
(`get_set_of_ne`), and a configuration is the default one with all its fields set in turn.
-/

namespace Sidecar.Config

/-- What values a field takes. -/
inductive Shape where
  | text
  | texts
  | indices
  /-- A size in bytes. -/
  | size
  | codec
  /-- A number of milliseconds. -/
  | millis
  deriving DecidableEq, Repr

/-- The values of a shape. -/
abbrev Shape.Value : Shape → Type
  | .text => String
  | .texts => List String
  | .indices => List Int64
  | .size => UInt64
  | .codec => Codec
  | .millis => UInt64

/-- The fields in the order in which they are declared and printed. -/
inductive Field where
  | name
  | args
  | parts
  | maxBuffer
  | codecSend
  | codecRecv
  | stderrWindowMs
  | closeGraceMs
  deriving DecidableEq, Repr

namespace Field

/-- All fields in order. -/
def all : List Field :=
  [.name, .args, .parts, .maxBuffer, .codecSend, .codecRecv, .stderrWindowMs, .closeGraceMs]

/-- The key of a field in a file. -/
def key : Field → String
  | .name => "name"
  | .args => "args"
  | .parts => "parts"
  | .maxBuffer => "max_buffer"
  | .codecSend => "codec_send"
  | .codecRecv => "codec_recv"
  | .stderrWindowMs => "stderr_window_ms"
  | .closeGraceMs => "close_grace_ms"

/-- The field with a key. -/
def ofKey? (key : String) : Option Field := all.find? (·.key == key)

/-- The shape of a field. -/
abbrev shape : Field → Shape
  | .name => .text
  | .args => .texts
  | .parts => .indices
  | .maxBuffer => .size
  | .codecSend => .codec
  | .codecRecv => .codec
  | .stderrWindowMs => .millis
  | .closeGraceMs => .millis

/-- Every field is listed. -/
theorem mem_all (field : Field) : field ∈ all := by
  cases field <;> decide

/-- A field is found under its key. -/
theorem ofKey?_key (field : Field) : ofKey? field.key = some field := by
  cases field <;> rfl

end Field

/-- The value of a field. -/
def get (c : Config) : (field : Field) → field.shape.Value
  | .name => c.name
  | .args => c.args
  | .parts => c.parts
  | .maxBuffer => c.maxBuffer
  | .codecSend => c.codecSend
  | .codecRecv => c.codecRecv
  | .stderrWindowMs => c.stderrWindowMs
  | .closeGraceMs => c.closeGraceMs

/-- Sets a field. -/
def set (c : Config) : (field : Field) → field.shape.Value → Config
  | .name, v => { c with name := v }
  | .args, v => { c with args := v }
  | .parts, v => { c with parts := v }
  | .maxBuffer, v => { c with maxBuffer := v }
  | .codecSend, v => { c with codecSend := v }
  | .codecRecv, v => { c with codecRecv := v }
  | .stderrWindowMs, v => { c with stderrWindowMs := v }
  | .closeGraceMs, v => { c with closeGraceMs := v }

/-- What was set is got. -/
@[simp] theorem get_set (c : Config) (field : Field) (v : field.shape.Value) :
    (c.set field v).get field = v := by
  cases field <;> rfl

/-- Setting a field leaves the others. -/
theorem get_set_of_ne (c : Config) {f g : Field} (v : f.shape.Value) (h : f ≠ g) :
    (c.set f v).get g = c.get g := by
  cases f <;> cases g <;> first | rfl | exact absurd rfl h

/-- Configurations with equal fields are equal. -/
theorem ext_get {c d : Config} (h : ∀ field, c.get field = d.get field) : c = d := by
  have h1 := h .name
  have h2 := h .args
  have h3 := h .parts
  have h4 := h .maxBuffer
  have h5 := h .codecSend
  have h6 := h .codecRecv
  have h7 := h .stderrWindowMs
  have h8 := h .closeGraceMs
  cases c
  cases d
  simp_all [get]

end Sidecar.Config
