import Sidecar.Codec

/-!
# Failures

What can go wrong between a caller and its child, as causes. `Failure.message` is the text that is
shown and `Failure.withHint` adds, where one is known, a line that says what to do about it.
-/

namespace Sidecar

/-- The kinds of input and output errors. -/
inductive IoKind where
  | notFound
  | permissionDenied
  | connectionReset
  | brokenPipe
  | wouldBlock
  | invalidInput
  | invalidData
  | timedOut
  | writeZero
  | interrupted
  | unexpectedEof
  | other
  /-- An error of the operating system without a kind of its own. -/
  | uncategorized
  deriving DecidableEq, Repr

/-- The text of an error of which only the kind is known. -/
def IoKind.text : IoKind → String
  | .notFound => "entity not found"
  | .permissionDenied => "permission denied"
  | .connectionReset => "connection reset"
  | .brokenPipe => "broken pipe"
  | .wouldBlock => "operation would block"
  | .invalidInput => "invalid input parameter"
  | .invalidData => "invalid data"
  | .timedOut => "timed out"
  | .writeZero => "write zero"
  | .interrupted => "operation interrupted"
  | .unexpectedEof => "unexpected end of file"
  | .other => "other error"
  | .uncategorized => "uncategorized error"

/-- An input or output error. -/
structure IoFault where
  kind : IoKind
  text : String
  deriving DecidableEq, Repr

/-- The error of which only the kind is known. -/
def IoFault.ofKind (kind : IoKind) : IoFault := ⟨kind, kind.text⟩

/-- An error reported by the operating system, with its number. -/
def IoFault.ofSystem (kind : IoKind) (text : String) (code : Nat) : IoFault :=
  ⟨kind, s!"{text} (os error {code})"⟩

/-- The ways in which an operation on a supervised child fails. -/
inductive Failure where
  /-- The child could not be spawned. -/
  | spawn (command : String) (cause : IoFault)
  /-- There is no child at the moment, or it went away during the call. -/
  | closed
  /-- Talking to the child failed. -/
  | io (cause : IoFault)
  /-- A stream is not framed as its codec demands. -/
  | framing (fault : Codec.Fault)
  /-- The child answered on its error stream. -/
  | subprocess (text : String)
  /-- Something did not happen in time. -/
  | timeout (text : String)
  /-- A configuration that can never work. -/
  | config (text : String)
  /-- A configuration file that could not be loaded. -/
  | configFile (path text : String)
  /-- A lock whose holder was lost. -/
  | lock (text : String)
  deriving DecidableEq, Repr

namespace Failure

/-- The text of a failure. -/
def message : Failure → String
  | .spawn command cause => s!"failed to spawn subprocess '{command}': {cause.text}"
  | .closed => "subprocess is closed"
  | .io cause => s!"IO error: {cause.text}"
  | .framing fault => s!"frame error: {fault.message}"
  | .subprocess text => text
  | .timeout text => s!"timed out: {text}"
  | .config text => s!"invalid configuration: {text}"
  | .configFile path text => s!"failed to load config {path}: {text}"
  | .lock text => s!"lock poisoned: {text}"

/-- What to do about a failure, where that is known. -/
def hint? : Failure → Option String
  | .spawn _ cause =>
    match cause.kind with
    | .notFound => some "check that the command exists and is on PATH"
    | .permissionDenied => some "the command is not executable"
    | _ => none
  | .framing (.tokenTooLong _) => some "raise max_buffer above the largest expected response"
  | .timeout _ => some "the subprocess keeps shutting down in the background"
  | _ => none

/-- The text of a failure with its hint on a second line. -/
def withHint (failure : Failure) : String :=
  match failure.hint? with
  | some hint => failure.message ++ "\n  hint: " ++ hint
  | none => failure.message

/-- Whether the child was unavailable for the call, so that it is worth trying again. -/
def isClosed : Failure → Bool
  | .closed => true
  | _ => false

end Failure
end Sidecar
