import Sidecar.CommandLine.Command
import Sidecar.Config.File
import Sidecar.Session.Call
import Sidecar.Stage.Pump

/-!
# Running a command

What a command writes and the code with which it ends, given the files, the search path and the
input. Faults are met in a fixed order: the batch size, the configuration, the input file, the
child, the room for a batch, and then the input itself. Where there is no room the thread that
processes the messages panics, and what is written tells of it with numbers that the system gives.
-/

namespace Sidecar.CommandLine

/-- What a command comes to. -/
structure Result where
  code : Nat
  output : Bytes
  errors : String
  deriving DecidableEq, Repr

namespace Result

/-- A command that succeeded. -/
def written (output : String) : Result := ⟨0, Bytes.ofString output, ""⟩

/-- A command that failed. -/
def failed (text : String) : Result := ⟨1, [], s!"Error: {text}\n"⟩

/-- A command line that is not understood. -/
def usage : Result := ⟨2, [], ""⟩

end Result

/-- What the system adds to the report of a panic. The defaults are those of one run, and another
run may have other numbers. -/
structure Runtime where
  /-- The name of the thread that processes the messages. -/
  worker : String := "tokio-rt-worker"
  /-- Its number. -/
  thread : Nat := 48
  /-- The number of the task that the thread works on. -/
  task : Nat := 5
  /-- Where in its text the program finds that there is no room. -/
  site : String :=
    "/rustc/b940084d7eb6a299eb4bfeb8e34901bc051e7ac4/library/alloc/src/raw_vec/mod.rs:28:5"
  hint : String := "note: run with `RUST_BACKTRACE=1` environment variable to display a backtrace"
  deriving DecidableEq, Repr

/-- What a thread writes when it panics. -/
def Runtime.report (r : Runtime) (text : String) : String :=
  s!"\nthread '{r.worker}' ({r.thread}) panicked at {r.site}:\n{text}\n{r.hint}\n"

/-- A command whose messages are processed by a thread that panics, so that what waits for its task
fails. -/
def Result.panicked (r : Runtime) (text : String) : Result :=
  ⟨1, [], r.report text ++ s!"Error: task {r.task} panicked with message {Text.quoted text}\n"⟩

/-- The name and version of the program. -/
def versionText : String := "tether 0.1.0\n"

/-- The configuration of a run: a file or the defaults, changed by options. -/
def RunOptions.resolve (o : RunOptions) (env : Environment) : Except Failure Config := do
  let c : Config ← match o.config with
    | some path => Config.ofFile env.files env.dir path
    | none => .ok {}
  let c : Config := match o.command with
    | name :: args => { c with name, args }
    | [] => c
  let c : Config :=
    { c with
      codecSend := o.codecSend.getD c.codecSend
      codecRecv := o.codecRecv.getD c.codecRecv
      parts := if o.parts = [] then c.parts else o.parts
      maxBuffer := o.maxBuffer.getD c.maxBuffer }
  c.validate
  .ok c

/-- The input of a run: its bytes, or the fault of reading them, once it has been opened. -/
def RunOptions.openInput (o : RunOptions) (env : Environment) (input : Bytes) :
    Except IoFault (Except IoFault Bytes) :=
  match o.input with
  | none => .ok (.ok input)
  | some path =>
    match env.files.read env.dir path with
    | .ok data => .ok (.ok data)
    | .error .isDirectory => .ok (.error FileTree.PathFault.isDirectory.toIoFault)
    | .error fault => .error fault.toIoFault

/-- What a run comes to when all messages have been processed. -/
def RunOptions.conclude (o : RunOptions) (report : Pump.Report) : Result :=
  if o.failsOnError ∧ report.failed ≠ 0 then
    let text := s!"Error: {report.failed} of {report.messages} messages failed\n"
    ⟨1, report.output, report.complaints ++ text⟩
  else ⟨0, report.output, report.complaints⟩

/-- Runs messages through a child, which is spawned before room is set aside for a batch. -/
def RunOptions.execute (o : RunOptions) (env : Environment) (input : Bytes)
    (runtime : Runtime := {}) : Result :=
  if o.batchSize = 0 then .failed "--batch-size must be at least 1"
  else
    match o.resolve env with
    | .error failure => .failed failure.withHint
    | .ok config =>
      match o.openInput env input with
      | .error fault => .failed fault.text
      | .ok bytes =>
        match Session.create config env with
        | .error failure => .failed failure.withHint
        | .ok session =>
          match Pump.reserve? o.batchSize.toNat, bytes with
          | none, _ => .panicked runtime "capacity overflow"
          | some _, .error fault => .failed fault.text
          | some _, .ok bytes =>
            let ((report, _), _) := (Pump.pump config o.batchSize.toNat bytes).run
              (fun r s ↦ s.exchange r.frame) session
            o.conclude report

/-- The selected parts, as they are shown. -/
def partsText (parts : List Int64) : String :=
  if parts = [] then "all" else ", ".intercalate (parts.map fun n ↦ toString n.toInt)

/-- The summary of a configuration. -/
def summary (path : String) (c : Config) (program : String) : String :=
  s!"{path}: ok\n" ++
  s!"  command: {c.commandLine} ({program})\n" ++
  s!"  codecs:  {c.codecSend.id} -> {c.codecRecv.id}\n" ++
  s!"  parts:   {partsText c.parts}\n" ++
  s!"  max_buffer: {c.maxBuffer.toNat} bytes\n"

/-- Checks a configuration file. -/
def check (path : String) (asJson : Bool) (env : Environment) : Result :=
  match Config.ofFile env.files env.dir path with
  | .error failure => .failed failure.withHint
  | .ok c =>
    match c.resolveProgram env with
    | .error failure => .failed failure.withHint
    | .ok program => .written (if asJson then c.toJson ++ "\n" else summary path c program)

/-- Runs a command. -/
def Command.execute (c : Command) (env : Environment) (input : Bytes) (runtime : Runtime := {}) :
    Result :=
  match c with
  | .version => .written versionText
  | .help => .written ""
  | .run options => options.execute env input runtime
  | .check config asJson => CommandLine.check config asJson env

/-- Runs a command line. -/
def execute (arguments : List String) (env : Environment) (input : Bytes)
    (runtime : Runtime := {}) : Result :=
  match Command.ofArguments? arguments with
  | some c => c.execute env input runtime
  | none => .usage

end Sidecar.CommandLine
