import Sidecar.Supervisor.State

/-!
# The steps of a supervisor

A step is taken by a caller, by the warden, or by a child, and its label says by whom. What the
system decides, such as whether a child can be spawned or how much time has passed, is part of the
label. `step` says when a label is possible and what follows; a run is a sequence of possible
labels, and every interleaving of threads and children is one.
-/

namespace Sidecar.Supervisor

/-- What a caller can ask for. -/
inductive Call where
  /-- A child in the slot, if there is none. -/
  | start
  /-- The child in the slot killed and reaped. -/
  | stop
  /-- An answer to a frame. -/
  | exchange (frame : Bytes)
  /-- Shutdown. -/
  | close
  /-- To know when shutdown is complete. -/
  | wait
  /-- A signal to the child of a handle. -/
  | kill (cell : CellId)
  deriving DecidableEq, Repr

/-- Who does what. -/
inductive Label where
  /-- A caller makes a call. -/
  | call (id : CallerId) (call : Call)
  /-- A caller goes on. -/
  | proceed (id : CallerId)
  /-- The child that someone wants is spawned, or is not. -/
  | launch (holder : Holder) (outcome : Launch)
  /-- The decoders of that child are spawned, or are not. -/
  | equip (holder : Holder) (outcome : Equip)
  /-- A caller's frame has been written as a whole. -/
  | written (id : CallerId)
  /-- A caller's frame could not be written. -/
  | unwritten (id : CallerId) (cause : IoFault)
  /-- A caller takes the oldest token of a stream, or notices that none will come. -/
  | receive (id : CallerId) (stream : Stream)
  /-- A caller that collects an error has waited long enough. -/
  | windowOver (id : CallerId)
  /-- A caller that waits for shutdown has waited long enough. -/
  | waitOver (id : CallerId) (timeout : Duration)
  /-- A caller leaves. -/
  | leave (id : CallerId)
  /-- Someone takes a handle for killing the child in the slot. -/
  | handle (cell : CellId)
  /-- The warden goes on. -/
  | warden
  /-- The warden notices the end of the child it watches. -/
  | exitNoticed
  /-- The warden notices the close request. -/
  | closeNoticed
  /-- The warden has rested long enough. -/
  | restOver
  /-- The warden drops an unread token. -/
  | discard (stream : Stream)
  /-- The warden has read what there was, or has waited long enough for it. -/
  | drained
  /-- The warden has given the last child time enough. -/
  | graceOver
  /-- A child writes. -/
  | emit (g : Generation) (stream : Stream) (bytes : Bytes)
  /-- A child's stream ends. -/
  | endStream (g : Generation) (stream : Stream)
  /-- A decoder tells those who wait for tokens that none will come. -/
  | disconnect (g : Generation) (stream : Stream)
  /-- A decoder reports the end of its stream. -/
  | report (g : Generation) (stream : Stream)
  /-- A child ends. -/
  | exit (g : Generation)
  deriving DecidableEq, Repr

end Supervisor

namespace Supervisor

variable (s : Supervisor)

/-- Puts a caller somewhere. -/
def place (id : CallerId) (caller : Caller) : Supervisor :=
  { s with callers := s.callers.set id caller }

/-- Ends a call. -/
def finish (id : CallerId) (outcome : Outcome) : Supervisor := s.place id (.done outcome)

/-- Enters a lifecycle state, unless shutdown was requested. -/
def enter (next : Lifecycle) : Supervisor := { s with lifecycle := s.lifecycle.enter next }

/-- Changes a child. -/
def modifyChild (g : Generation) (f : Child → Child) : Supervisor :=
  { s with children := s.children.modify g f }

/-- Kills a child and waits for it. -/
def reap (g : Generation) : Supervisor :=
  s.modifyChild g ({ · with status := .reaped })

/-- Takes the child out of the slot. -/
def emptySlot (next : Lifecycle) : Supervisor := { (s.enter next) with handle := none }

/-! ## Starting a child -/

/-- A start locks the slot, unless there is nothing to do. -/
def beginStart (holder : Holder) : Except (Except Failure Unit) Supervisor :=
  if s.isClosed then .error (.error .closed)
  else if s.handle.isSome then .error (.ok ())
  else .ok { s with lock := some holder }

/-- A child is spawned, or is not. The next position of the start, or how it ends. -/
def launchChild (isReplacement : Bool) (outcome : Launch) :
    Except Failure Start × Supervisor :=
  match outcome with
  | .refused cause => (.error (.spawn s.config.commandLine cause), { s with lock := none })
  | .uncaptured => (.ok .discarding, { s with strays := .running :: s.strays })
  | .launched =>
    let g := s.generation + 1
    (.ok (.equipping g),
      { s with generation := g, children := s.children.set g (.fresh s.config isReplacement) })

/-- Decoders are spawned, or are not. A child with both of them goes into the slot. -/
def equipChild (g : Generation) (outcome : Equip) : Option Start × Supervisor :=
  match outcome with
  | .failed cause => (some (.scrapping g cause), s)
  | .equipped => (none, { (s.enter .running) with handle := some g, lock := none })

/-- The failure of a child that came without its standard streams. -/
def uncapturedFailure : Failure :=
  .spawn s.config.commandLine ⟨.other, "failed to capture subprocess standard streams"⟩

/-- Kills and reaps the child of a start that failed. -/
def abandon : Start → Option (Failure × Supervisor)
  | .discarding =>
    some (s.uncapturedFailure, { s with strays := .reaped :: s.strays.tail, lock := none })
  | .scrapping g cause => some (.io cause, { (s.reap g) with lock := none })
  | _ => none

/-! ## Callers -/

/-- The text of the lines of an error, which are given latest first. -/
def errorText (lines : List Bytes) : String :=
  let text := Utf8.decodeLossy (Bytes.joinSegments lines.reverse)
  if text = "" then "subprocess wrote an empty line to stderr" else text

/-- The failure of a frame that could not be written. -/
def writeFailure (cause : IoFault) : Failure :=
  if cause.kind = .brokenPipe then .closed else .io cause

/-- Ends a call to start a child. -/
def finishStart (id : CallerId) : Except Failure Unit → Supervisor
  | .ok () => s.finish id .ok
  | .error failure => s.finish id (.failed failure)

/-- The call of a start that has ended is done. -/
theorem callers_finishStart (id : CallerId) (result : Except Failure Unit) :
    ∃ outcome, (s.finishStart id result).callers = s.callers.set id (.done outcome) := by
  cases result <;> exact ⟨_, rfl⟩

theorem children_finishStart (id : CallerId) (result : Except Failure Unit) :
    (s.finishStart id result).children = s.children := by
  cases result <;> rfl

theorem warden_finishStart (id : CallerId) (result : Except Failure Unit) :
    (s.finishStart id result).warden = s.warden := by
  cases result <;> rfl

theorem restarts_finishStart (id : CallerId) (result : Except Failure Unit) :
    (s.finishStart id result).restarts = s.restarts := by
  cases result <;> rfl

/-- Whether a kill was requested through a handle or a copy of it. -/
def isKilled (cell : CellId) : Bool := ((s.cells.get? cell).map (·.requested)).getD false

/-- Where a call begins. -/
def Call.begin : Call → Caller
  | .start => .starting .requested
  | .stop => .stopping
  | .exchange frame => .sending frame
  | .close => .closing
  | .wait => .waiting
  | .kill cell => .targeting cell

/-- A caller goes on without anybody's help; what needs the slot waits until it is not locked. -/
def proceedCaller (id : CallerId) : Caller → Option Supervisor
  | .starting .requested =>
    if s.lock.isSome then none
    else
      match s.beginStart (.caller id) with
      | .error result => some (s.finishStart id result)
      | .ok s => some (s.place id (.starting .launching))
  | .starting start =>
    (s.abandon start).map fun (failure, s) ↦ s.finish id (.failed failure)
  | .stopping =>
    if s.lock.isSome then none
    else
      match s.handle with
      | none => some (s.finish id .ok)
      | some g => some ((s.emptySlot .exiting).place id (.reaping g))
  | .reaping g => some ((s.reap g).finish id .ok)
  | .sending frame =>
    if s.lock.isSome then none
    else
      match s.handle with
      | none => some (s.finish id (.failed .closed))
      | some g => some (s.place id (.entering g frame))
  | .entering g frame =>
    match s.children.get? g with
    | none => none
    | some c =>
      if c.writer.isSome then none
      else if c.hasInput then
        some ((s.modifyChild g ({ · with writer := some id })).place id (.writing g frame))
      else some (s.finish id (.failed .closed))
  | .closing =>
    if s.isClosed then some (s.finish id .ok)
    else some ({ s with isClosed := true }.place id .announcing)
  | .announcing =>
    if s.lock.isSome then none else some ((s.enter .closed).place id .notifying)
  | .notifying => some ({ s with closeNotice := true }.finish id .ok)
  | .waiting => if s.warden = .finished then some (s.finish id .ok) else none
  | .targeting cell =>
    match s.cells.get? cell with
    | none => none
    | some k =>
      if k.requested then some (s.finish id (.signalled false))
      else
        some ({ s with cells := s.cells.set cell { k with requested := true } }.place id
          (.signalling k.target))
  | .signalling g =>
    if s.lock.isSome then none
    else if s.handle = some g then
      some ((s.modifyChild g fun c ↦
        if c.status = .running then { c with status := .exited } else c).finish id
          (.signalled true))
    else some (s.finish id (.signalled false))
  | .writing .. => none
  | .awaiting _ => none
  | .collecting .. => none
  | .done _ => none

/-- A caller takes a token of a stream, or notices that none will come. -/
def receiveToken (id : CallerId) (stream : Stream) : Caller → Option Supervisor
  | .awaiting g =>
    match s.children.get? g with
    | none => none
    | some c =>
      match (c.outlet stream).take? with
      | some (token, o) =>
        let s := s.modifyChild g (·.setOutlet stream o)
        match stream with
        | .out => some (s.finish id (.answer token))
        | .err => some (s.place id (.collecting g [token]))
      | none =>
        if (c.outlet stream).isDisconnected then some (s.finish id (.failed .closed)) else none
  | .collecting g lines =>
    match s.children.get? g, stream with
    | some c, .err =>
      match c.err.take? with
      | some (token, o) =>
        some ((s.modifyChild g (·.setOutlet .err o)).place id (.collecting g (token :: lines)))
      | none =>
        if c.err.isDisconnected then
          some (s.finish id (.failed (.subprocess (errorText lines))))
        else none
    | _, _ => none
  | _ => none

/-- A frame has been written, or could not be. -/
def endWriting (id : CallerId) (result : Except IoFault Unit) : Caller → Option Supervisor
  | .writing g frame =>
    match result with
    | .ok () =>
      some ((s.modifyChild g fun c ↦
        { c with writer := none, requests := frame :: c.requests }).place id (.awaiting g))
    | .error cause =>
      some ((s.modifyChild g ({ · with writer := none })).finish id
        (.failed (writeFailure cause)))
  | _ => none

/-! ## The warden -/

/-- Ends a start of the warden: a child counts as a replacement, whoever spawned it. -/
def wardenStarted : Except Failure Unit → Supervisor
  | .ok () => { s with warden := .counting }
  | .error _ => { s with warden := .looking }

theorem callers_wardenStarted (result : Except Failure Unit) :
    (s.wardenStarted result).callers = s.callers := by
  cases result <;> rfl

theorem children_wardenStarted (result : Except Failure Unit) :
    (s.wardenStarted result).children = s.children := by
  cases result <;> rfl

/-- Only where it counts does the warden count what it has started. -/
theorem restarts_wardenStarted (result : Except Failure Unit) :
    (s.wardenStarted result).restarts = s.restarts := by
  cases result <;> rfl

/-- The warden goes on without anybody's help. -/
def proceedWarden : Option Supervisor :=
  match s.warden with
  | .looking =>
    if s.lock.isSome then none
    else
      match s.handle with
      | some g => some { s with warden := .watching g }
      | none => some { s with warden := .resting }
  | .reclaiming g =>
    if s.lock.isSome then none
    else if s.handle = some g then some { (s.emptySlot .exiting) with warden := .reaping g }
    else some { s with warden := .checking }
  | .reaping g => some { (s.reap g) with warden := .draining g }
  | .checking => some { s with warden := if s.isClosed then .looking else .marking }
  | .marking =>
    if s.lock.isSome then none
    else some { (s.enter .restarting) with warden := .starting .requested }
  | .starting .requested =>
    if s.lock.isSome then none
    else
      match s.beginStart .warden with
      | .error result => some (s.wardenStarted result)
      | .ok s => some { s with warden := .starting .launching }
  | .starting start =>
    (s.abandon start).map fun (failure, s) ↦ s.wardenStarted (.error failure)
  | .counting => some { s with restarts := s.restarts + 1, warden := .looking }
  | .closing =>
    if s.lock.isSome then none
    else
      match s.handle with
      | none => some { s with warden := .releasing }
      | some g =>
        some { (s.emptySlot .closed) with
          warden := if s.config.closeGraceMs = 0 then .finishing g else .dismissing g }
  | .dismissing g =>
    some { (s.modifyChild g fun c ↦ if c.writer.isSome then c else { c with hasInput := false })
      with warden := .lingering g }
  | .lingering g =>
    match s.children.get? g with
    | some c =>
      if c.status = .running then none else some { (s.reap g) with warden := .releasing }
    | none => none
  | .finishing g => some { (s.reap g) with warden := .releasing }
  | .releasing => some { s with warden := .finished }
  | .watching _ => none
  | .resting => none
  | .draining _ => none
  | .finished => none

/-- The warden drops an unread token of the child that it took out. -/
def discardToken (stream : Stream) : Option Supervisor :=
  match s.warden with
  | .draining g =>
    match s.children.get? g with
    | some c =>
      (c.outlet stream).take?.map fun (_, o) ↦ s.modifyChild g (·.setOutlet stream o)
    | none => none
  | _ => none

/-- The warden takes the close request and leaves its loop. -/
def noticeClose : Option Supervisor :=
  match s.warden with
  | .watching _ =>
    if s.closeNotice then some { s with closeNotice := false, warden := .closing } else none
  | .resting =>
    if s.closeNotice then some { s with closeNotice := false, warden := .closing } else none
  | _ => none

/-- The warden notices that the child it watches has ended, and takes the report of it, if one
waits. -/
def noticeExit : Option Supervisor :=
  match s.warden with
  | .watching g =>
    match s.children.get? g with
    | some c =>
      if c.showsExit then
        some { (s.modifyChild g ({ · with exitNotice := false })) with warden := .reclaiming g }
      else none
    | none => none
  | _ => none

/-! ## Starts, whoever makes them -/

/-- Where the start of a thread stands. -/
def startOf? : Holder → Option Start
  | .caller id =>
    match s.callers.get? id with
    | some (.starting start) => some start
    | _ => none
  | .warden =>
    match s.warden with
    | .starting start => some start
    | _ => none

/-- Moves the start of a thread. -/
def placeStart (start : Start) : Holder → Supervisor
  | .caller id => s.place id (.starting start)
  | .warden => { s with warden := .starting start }

/-- Ends the start of a thread. -/
def endStart (result : Except Failure Unit) : Holder → Supervisor
  | .caller id => s.finishStart id result
  | .warden => s.wardenStarted result

/-- The thread's child is spawned, or is not. -/
def stepLaunch (holder : Holder) (outcome : Launch) : Option Supervisor :=
  match s.startOf? holder with
  | some .launching =>
    match s.launchChild (holder = .warden) outcome with
    | (.ok start, s) => some (s.placeStart start holder)
    | (.error failure, s) => some (s.endStart (.error failure) holder)
  | _ => none

/-- The decoders of the thread's child are spawned, or are not. -/
def stepEquip (holder : Holder) (outcome : Equip) : Option Supervisor :=
  match s.startOf? holder with
  | some (.equipping g) =>
    match s.equipChild g outcome with
    | (some start, s) => some (s.placeStart start holder)
    | (none, s) => some (s.endStart (.ok ()) holder)
  | _ => none

/-! ## Children -/

/-- Changes an outlet, if the child has come so far. -/
def stepOutlet (g : Generation) (stream : Stream) (f : Outlet → Option Outlet) :
    Option Supervisor :=
  match s.children.get? g with
  | none => none
  | some c => (f (c.outlet stream)).map fun o ↦ s.modifyChild g (·.setOutlet stream o)

/-- A decoder that has told everybody reports the end of its stream; the first report of a child
waits for the warden. -/
def stepReport (g : Generation) (stream : Stream) : Option Supervisor :=
  match s.children.get? g with
  | none => none
  | some c =>
    let o := c.outlet stream
    if o.phase = .disconnected then
      some (s.modifyChild g fun c ↦
        { c.setOutlet stream { o with phase := .reported } with
          hasFired := true
          exitNotice := c.exitNotice || !c.hasFired })
    else none

/-! ## All steps -/

/-- What follows a label, if it is possible. -/
def step : Label → Option Supervisor
  | .call id call =>
    match s.callers.get? id with
    | none => some (s.place id call.begin)
    | some _ => none
  | .proceed id => (s.callers.get? id).bind (s.proceedCaller id)
  | .launch holder outcome => s.stepLaunch holder outcome
  | .equip holder outcome => s.stepEquip holder outcome
  | .written id => (s.callers.get? id).bind (s.endWriting id (.ok ()))
  | .unwritten id cause => (s.callers.get? id).bind (s.endWriting id (.error cause))
  | .receive id stream => (s.callers.get? id).bind (s.receiveToken id stream)
  | .windowOver id =>
    match s.callers.get? id with
    | some (.collecting g lines) =>
      match s.children.get? g with
      | some c =>
        if c.err.queue = [] then
          some (s.finish id (.failed (.subprocess (errorText lines))))
        else none
      | none => none
    | _ => none
  | .waitOver id timeout =>
    match s.callers.get? id with
    | some .waiting =>
      if s.warden = .finished then none
      else
        let text := s!"subprocess failed to close in {timeout.render}"
        some (s.finish id (.failed (.timeout text)))
    | _ => none
  | .leave id =>
    match s.callers.get? id with
    | some (.done _) => some { s with callers := s.callers.erase id }
    | _ => none
  | .handle cell =>
    if s.lock.isSome then none
    else
      match s.handle, s.cells.get? cell with
      | some g, none => some { s with cells := s.cells.set cell ⟨g, false⟩ }
      | _, _ => none
  | .warden => s.proceedWarden
  | .exitNoticed => s.noticeExit
  | .closeNoticed => s.noticeClose
  | .restOver => if s.warden = .resting then some { s with warden := .checking } else none
  | .discard stream => s.discardToken stream
  | .drained =>
    match s.warden with
    | .draining _ => some { s with warden := .checking }
    | _ => none
  | .graceOver =>
    match s.warden with
    | .lingering g => some { s with warden := .finishing g }
    | _ => none
  | .emit g stream bytes =>
    s.stepOutlet g stream fun o ↦ if o.phase = .decoding then some (o.feed bytes) else none
  | .endStream g stream =>
    s.stepOutlet g stream fun o ↦ if o.phase = .decoding then some o.close else none
  | .disconnect g stream =>
    s.stepOutlet g stream fun o ↦
      if o.phase = .stopped then some { o with phase := .disconnected } else none
  | .report g stream => s.stepReport g stream
  | .exit g =>
    match s.children.get? g with
    | some c =>
      if c.status = .running then some (s.modifyChild g ({ · with status := .exited })) else none
    | none => none

/-- A supervisor that can be reached by some labels. -/
inductive Reaches : Supervisor → Supervisor → Prop where
  | refl (s : Supervisor) : Reaches s s
  | step {s t u : Supervisor} (label : Label) : Reaches s t → t.step label = some u → Reaches s u

end Supervisor
end Sidecar
