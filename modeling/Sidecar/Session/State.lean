import Sidecar.Supervisor.Create
import Sidecar.World.Script

/-!
# Sessions

A session is a supervisor whose children are processes of a world. The supervisor moves by its own
steps only, and the world follows it: a child that is reaped is killed and forgotten, an input that
is closed has no writer, and an output that is no longer decoded has no reader. Moments are added
where the supervisor leaves it to the system how long something takes.
-/

namespace Sidecar

open Supervisor (Generation CallerId CellId)

/-- A child as a process. -/
structure Session.Body where
  pid : World.Pid
  streams : World.Streams
  deriving DecidableEq, Repr

/-- The moment at which a caller gives up, and how long it has waited then. -/
structure Session.Limit where
  moment : Nat
  length : Duration
  deriving DecidableEq, Repr

/-- A supervisor in a world. -/
structure Session where
  supervisor : Supervisor
  world : World
  /-- The current directory. -/
  dir : String
  /-- The path of the program to run. -/
  program : String
  /-- The processes of the children that are still of interest. -/
  bodies : Table Generation Session.Body
  /-- What is still to be written of the frames of callers. -/
  outbox : Table CallerId Bytes
  /-- The callers that wait no longer than some moment. -/
  limits : Table CallerId Session.Limit
  /-- The moment at which the warden has waited long enough. -/
  wardenLimit : Nat
  /-- The moment at which the warden looks again whether the last child has ended. -/
  wardenPoll : Nat
  /-- The next number for a caller or a handle. -/
  next : Nat

namespace Session

/-- How long the warden rests before it tries again to spawn a child, in nanoseconds. -/
def restTime : Nat := 500_000_000

/-- How long the warden waits for the rest of a child's output. -/
def drainTime : Nat := 1_000_000_000

/-- How long the warden waits before it looks again whether the last child has ended. -/
def pollTime : Nat := 20_000_000

/-- How long it takes to spawn a child. -/
def spawnTime : Nat := 1_000_000

/-- How long a step of a process takes. -/
def stepTime : Nat := 2000

/-- The pipe of a stream. -/
def Body.pipe (b : Body) : Supervisor.Stream → World.PipeId
  | .out => b.streams.output
  | .err => b.streams.errors

/-- The present moment. -/
def now (s : Session) : Nat := s.world.clock

/-- The world when nobody writes to a pipe from outside any more. -/
def closeInput (w : World) (pipe : World.PipeId) : World :=
  { w with outsideWriters := w.outsideWriters.filter (· ≠ pipe) }

/-- The world when nobody reads from a pipe from outside any more. -/
def closeOutput (w : World) (pipe : World.PipeId) : World :=
  { w with outsideReaders := w.outsideReaders.filter (· ≠ pipe) }

/-- The world after a child has changed. -/
def followChild (b : Body) (before after : Supervisor.Child) (w : World) : World :=
  let w :=
    if after.status = before.status then w
    else
      match after.status with
      | .running => w
      | .exited => w.kill b.pid World.sigkill
      | .reaped => closeInput ((w.kill b.pid World.sigkill).forget b.pid) b.streams.input
  let w := if before.hasInput ∧ ¬ after.hasInput then closeInput w b.streams.input else w
  let close (stream : Supervisor.Stream) (w : World) : World :=
    if (before.outlet stream).phase = .decoding ∧ (after.outlet stream).phase ≠ .decoding then
      closeOutput w (b.pipe stream)
    else w
  close .err (close .out w)

/-- Whether nothing more can come of a child. -/
def isOver (c : Supervisor.Child) : Bool :=
  c.status = .reaped && c.out.phase = .reported && c.err.phase = .reported

/-- Kills the process of a child. The moment at which it can be waited for comes first. -/
def killBody (s : Session) (g : Generation) : Nat × Session :=
  match s.bodies.get? g with
  | none => (s.now, s)
  | some b =>
    let length := ((s.world.processes.get? b.pid).map World.Process.exitTime).getD 0
    (s.now + length, { s with world := s.world.kill b.pid World.sigkill })

/-- The warden kills a child and waits for it. -/
def killByWarden (s : Session) (g : Generation) : Session :=
  let (moment, s) := s.killBody g
  { s with wardenLimit := moment }

/-- The moments of a warden that has just come somewhere. -/
def timeWarden (s : Session) (before : Supervisor.Warden) : Session :=
  if s.supervisor.warden = before then s
  else
    match s.supervisor.warden with
    | .resting => { s with wardenLimit := s.now + restTime }
    | .reaping g => s.killByWarden g
    | .finishing g => s.killByWarden g
    | .draining _ => { s with wardenLimit := s.now + drainTime }
    | .lingering _ =>
      { s with
        wardenLimit := s.now + s.supervisor.config.closeGrace.toNanos
        wardenPoll := s.now }
    | _ => s

/-- Takes a step of the supervisor, if it is possible, and lets the world follow. -/
def apply (s : Session) (label : Supervisor.Label) : Option Session :=
  (s.supervisor.step label).map fun after ↦
    let before := s.supervisor
    let world := s.bodies.entries.foldl (fun w (g, b) ↦
      match before.children.get? g, after.children.get? g with
      | some old, some new => followChild b old new w
      | _, _ => w) s.world
    let bodies : Table Generation Body := ⟨s.bodies.entries.filter fun (g, _) ↦
      !((after.children.get? g).map isOver).getD false⟩
    { s with supervisor := after, world, bodies }.timeWarden before.warden

/-- Spawns the child that someone wants, which takes a while. -/
def launch (s : Session) (holder : Supervisor.Holder) : Option Session :=
  match s.world.spawn s.dir s.program s.supervisor.config.args with
  | .error cause => s.apply (.launch holder (.refused cause))
  | .ok (pid, streams, world) =>
    let spawned : Session := { s with world := { world with clock := world.clock + spawnTime } }
    (spawned.apply (.launch holder .launched)).map fun s ↦
      { s with bodies := s.bodies.set s.supervisor.generation ⟨pid, streams⟩ }

/-! ## Callers -/

/-- The error of a write to a child that does not read any more. -/
def brokenPipe : IoFault := .ofSystem .brokenPipe "Broken pipe" 32

/-- A caller writes some of its frame. -/
def write (s : Session) (id : CallerId) (g : Generation) : Option Session :=
  match s.outbox.get? id with
  | none => s.apply (.written id)
  | some [] => s.apply (.written id)
  | some bytes =>
    match s.bodies.get? g with
    | none => s.apply (.unwritten id brokenPipe)
    | some b =>
      match s.world.writePipe b.streams.input bytes with
      | (.taken n, world) => some { s with world, outbox := s.outbox.set id (bytes.drop n) }
      | (.pending, _) => none
      | _ => s.apply (.unwritten id brokenPipe)

/-- A caller that begins to collect an error does so for as long as the configuration says, and one
that kills a child waits for it. -/
def timeCaller (s : Session) (id : CallerId) : Session :=
  match s.supervisor.callers.get? id with
  | some (.collecting ..) =>
    let length := s.supervisor.config.stderrWindow
    { s with limits := s.limits.set id ⟨s.now + length.toNanos, length⟩ }
  | some (.reaping g) =>
    let (moment, t) := s.killBody g
    { t with limits := t.limits.set id ⟨moment, .ofNanos (moment - s.now)⟩ }
  | _ => s

/-- The limit of a caller, if its moment has come. -/
def overdue? (s : Session) (id : CallerId) : Option Limit :=
  (s.limits.get? id).filter fun l ↦ l.moment ≤ s.now

/-- A step of a caller, if one is possible. -/
def stepCaller (s : Session) (id : CallerId) : Option Session :=
  match s.supervisor.callers.get? id with
  | none => none
  | some (.done _) => none
  | some (.starting .launching) => s.launch (.caller id)
  | some (.starting (.equipping _)) => s.apply (.equip (.caller id) .equipped)
  | some (.writing g _) => s.write id g
  | some (.awaiting _) =>
    s.apply (.receive id .out) <|> (s.apply (.receive id .err)).map (·.timeCaller id)
  | some (.collecting ..) =>
    s.apply (.receive id .err) <|> (s.overdue? id).bind fun _ ↦ s.apply (.windowOver id)
  | some .stopping => (s.apply (.proceed id)).map (·.timeCaller id)
  | some (.reaping _) => (s.overdue? id).bind fun _ ↦ s.apply (.proceed id)
  | some .waiting =>
    s.apply (.proceed id) <|> (s.overdue? id).bind fun l ↦ s.apply (.waitOver id l.length)
  | some _ => s.apply (.proceed id)

/-! ## Children -/

/-- A step of the decoder of a stream. -/
def stepDecoder (s : Session) (g : Generation) (b : Body) (stream : Supervisor.Stream) :
    Option Session :=
  match s.supervisor.children.get? g with
  | none => none
  | some c =>
    match (c.outlet stream).phase with
    | .decoding =>
      match s.world.read (some (.pipeReader (b.pipe stream))) with
      | (.bytes bytes, world) =>
        let read : Session := { s with world }
        read.apply (.emit g stream bytes)
      | (.ended, _) => s.apply (.endStream g stream)
      | _ => none
    | .stopped => s.apply (.disconnect g stream)
    | .disconnected => s.apply (.report g stream)
    | .reported => none

/-- Notices that a child has ended. -/
def stepExit (s : Session) (g : Generation) (b : Body) : Option Session :=
  match s.world.processes.get? b.pid with
  | some p => if p.status.isSome then s.apply (.exit g) else none
  | none => none

/-- A step for one of the children. -/
def stepChild (s : Session) : Option Session :=
  s.bodies.entries.findSome? fun (g, b) ↦
    s.stepDecoder g b .out <|> s.stepDecoder g b .err <|> s.stepExit g b

/-- A step of one of the processes, which takes a moment. -/
def stepProcess (s : Session) : Option Session :=
  (s.world.processes.keys.findSome? s.world.step).map fun world ↦
    { s with world := { world with clock := world.clock + stepTime } }

/-! ## The warden -/

/-- A step of the warden, if one is possible. -/
def stepWarden (s : Session) : Option Session :=
  match s.supervisor.warden with
  | .watching _ => s.apply .closeNoticed <|> s.apply .exitNoticed
  | .resting =>
    s.apply .closeNoticed <|> if s.wardenLimit ≤ s.now then s.apply .restOver else none
  | .starting .launching => s.launch .warden
  | .starting (.equipping _) => s.apply (.equip .warden .equipped)
  | .reaping _ => if s.wardenLimit ≤ s.now then s.apply .warden else none
  | .finishing _ => if s.wardenLimit ≤ s.now then s.apply .warden else none
  | .draining g =>
    s.apply (.discard .out) <|> s.apply (.discard .err) <|>
      match s.supervisor.children.get? g with
      | some c =>
        if (c.out.isDisconnected && c.err.isDisconnected) || s.wardenLimit ≤ s.now then
          s.apply .drained
        else none
      | none => none
  | .lingering _ =>
    if s.now < s.wardenPoll then none
    else if s.wardenLimit ≤ s.now then s.apply .graceOver
    else s.apply .warden <|> some { s with wardenPoll := s.now + pollTime }
  | _ => s.apply .warden

/-! ## Turns -/

/-- The caller in front, who goes first. -/
def front : CallerId := 0

/-- A step of whoever can take one: callers before decoders, these before the warden, and processes
last. -/
def turn (s : Session) : Option Session :=
  s.stepCaller front <|> s.supervisor.callers.keys.findSome? s.stepCaller <|> s.stepChild <|>
    s.stepWarden <|> s.stepProcess

/-- The moments at which someone who waits goes on. -/
def moments (s : Session) : List Nat :=
  let callers := s.supervisor.callers.entries.filterMap fun (id, c) ↦
    match c with
    | .collecting .. => (s.limits.get? id).map (·.moment)
    | .reaping _ => (s.limits.get? id).map (·.moment)
    | .waiting => (s.limits.get? id).map (·.moment)
    | _ => none
  let warden := match s.supervisor.warden with
    | .resting => [s.wardenLimit]
    | .reaping _ => [s.wardenLimit]
    | .finishing _ => [s.wardenLimit]
    | .draining _ => [s.wardenLimit]
    | .lingering _ => [s.wardenPoll]
    | _ => []
  let sleepers := s.world.processes.values.filterMap fun p ↦
    match p.task with
    | .sleep deadline => if p.status.isSome then none else deadline
    | _ => none
  callers ++ warden ++ sleepers

/-- Lets time pass up to the next moment at which someone goes on, if there is one. -/
def pass (s : Session) (moments : List Nat) : Option Session :=
  ((moments.filter (s.now < ·)).min?).map fun clock ↦ { s with world := { s.world with clock } }

/-- A bound on the steps until something that is waited for has come. -/
def patience : Nat := 20000000

/-- Goes on until something has come, or a moment; the number bounds the steps. -/
def run (isGoal : Session → Bool) (limit : Option Nat) : Nat → Session → Session
  | 0, s => s
  | fuel + 1, s =>
    if isGoal s then s
    else if limit.any (· ≤ s.now) then s
    else
      match s.turn with
      | some s => run isGoal limit fuel s
      | none =>
        match s.pass (limit.toList ++ s.moments) with
        | some s => run isGoal limit fuel s
        | none => s

/-- Goes on until something has come. -/
def runUntil (s : Session) (limit : Option Nat) (isGoal : Session → Bool) : Session :=
  run isGoal limit patience s

end Session
end Sidecar
