import Sidecar.Duration
import Sidecar.Failure
import Sidecar.Text.Blank

/-!
# Configurations

A configuration names the command to run and says how to talk to it. Every field has a default, so
a configuration file only names what it changes. `validate` refuses values that can never work; the
setters do not, and a duration is stored as whole milliseconds in a 64-bit word.
-/

namespace Sidecar

/-- How to run a child and how to talk to it. -/
structure Config where
  /-- The command to run. -/
  name : String := "cat"
  /-- The arguments of the command. -/
  args : List String := []
  /-- The parts of a batch to process, all of them if empty; negative ones count from the end. -/
  parts : List Int64 := []
  /-- The largest size of one response frame in bytes. -/
  maxBuffer : UInt64 := 65536
  /-- The framing of requests. -/
  codecSend : Codec := .lines
  /-- The framing of responses. -/
  codecRecv : Codec := .lines
  /-- How many milliseconds lines of an error are collected after its first one. -/
  stderrWindowMs : UInt64 := 1000
  /-- How many milliseconds a closing child gets to exit before it is killed. -/
  closeGraceMs : UInt64 := 1000
  deriving DecidableEq, Repr, Inhabited

namespace Config

/-- Sets both codecs. -/
def withCodecs (c : Config) (send recv : Codec) : Config :=
  { c with codecSend := send, codecRecv := recv }

/-- Sets how long lines of an error are collected; what is below a millisecond is dropped. -/
def withStderrWindow (c : Config) (d : Duration) : Config :=
  { c with stderrWindowMs := d.millisWord }

/-- Sets how long a closing child gets; what is below a millisecond is dropped. -/
def withCloseGrace (c : Config) (d : Duration) : Config := { c with closeGraceMs := d.millisWord }

/-- How long lines of an error are collected. -/
def stderrWindow (c : Config) : Duration := Duration.ofMillis c.stderrWindowMs.toNat

/-- How long a closing child gets. -/
def closeGrace (c : Config) : Duration := Duration.ofMillis c.closeGraceMs.toNat

/-- The command and its arguments, one blank between each two. -/
def commandLine (c : Config) : String := " ".intercalate (c.name :: c.args)

/-- The largest window and grace period, one hour in milliseconds. -/
def maxWindowMs : UInt64 := 3600000

/-- What a configuration that can never work is refused for; the first reason counts. -/
def refusal? (c : Config) : Option String :=
  if Text.isBlank c.name then some "name must not be empty"
  else if c.maxBuffer = 0 then some "max_buffer must be positive"
  else if maxWindowMs < c.stderrWindowMs then
    some s!"stderr_window_ms must be at most {maxWindowMs.toNat}"
  else if maxWindowMs < c.closeGraceMs then
    some s!"close_grace_ms must be at most {maxWindowMs.toNat}"
  else none

/-- Refuses a configuration that can never work. -/
def validate (c : Config) : Except Failure Unit :=
  match c.refusal? with
  | some reason => .error (.config reason)
  | none => .ok ()

end Config
end Sidecar
