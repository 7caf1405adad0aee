import Sidecar.Proofs.Supervisor.Duty

/-!
# What a step can do

`Move` lists what a step can do to the slot, the children and the duties of the threads. Nothing
else happens, as is shown apart (`move_of_step`). The invariants of a supervisor are proved by cases
over moves and never look into `step` again.
-/

namespace Sidecar.Supervisor

/-- What the invariants say of a child: whether it is still to be reaped, and who spawned it. -/
structure Standing where
  isLive : Bool
  isReplacement : Bool
  deriving DecidableEq, Repr

/-- The standing of a child. -/
def Child.standing (c : Child) : Standing := ⟨c.status ≠ .reaped, c.isReplacement⟩

/-- The standing of a child, given all of them. -/
def standingAmong? (children : Table Generation Child) (g : Generation) : Option Standing :=
  (children.get? g).map Child.standing

/-- The standing of a child. -/
def standing? (s : Supervisor) : Generation → Option Standing := standingAmong? s.children

/-- The label under which a thread goes on. -/
def Holder.label : Holder → Label
  | .caller id => .proceed id
  | .warden => .warden

/-- What a step can do to the kill requests. -/
inductive CellStep (s : Supervisor) : Label → Table CellId KillCell → Prop where
  | same {label : Label} : CellStep s label s.cells
  /-- Someone takes a handle for killing the child in the slot. -/
  | taken {cell : CellId} {g : Generation} (hhandle : s.handle = some g)
      (hfree : s.cells.get? cell = none) : CellStep s (.handle cell) (s.cells.set cell ⟨g, false⟩)
  /-- A kill is requested through a handle for the first time. -/
  | requested {id : CallerId} {cell : CellId} {k : KillCell}
      (hpost : s.callers.get? id = some (.targeting cell)) (hcell : s.cells.get? cell = some k)
      (hopen : k.requested = false) :
      CellStep s (.proceed id) (s.cells.set cell { k with requested := true })

/-- What a step can do. -/
inductive Move (s : Supervisor) : Label → Supervisor → Prop where
  /-- Requests and answers pass, and no thread takes a duty or leaves one. -/
  | talk {label : Label} {callers : Table CallerId Caller} {children : Table Generation Child}
      {cells : Table CellId KillCell}
      (hduty : ∀ h, dutyAmong? callers s.warden h = s.duty? h)
      (hstanding : ∀ g, standingAmong? children g = s.standing? g)
      (hcells : CellStep s label cells) :
      Move s label { s with callers, children, cells }
  /-- The warden goes on with the duty that it has. -/
  | patrol {label : Label} {children : Table Generation Child} {warden : Warden}
      (hduty : warden.duty? = s.warden.duty?)
      (hstanding : ∀ g, standingAmong? children g = s.standing? g)
      (hleft : warden.hasLeft = s.warden.hasLeft)
      (hcleared : warden.hasCleared = true →
        s.warden.hasCleared = true ∨ s.warden.hasLeft = true ∧ s.handle = none) :
      Move s label { s with children, warden }
  /-- A start locks the empty slot. -/
  | locked {h : Holder} {callers : Table CallerId Caller} {warden : Warden}
      (hlock : s.lock = none) (hopen : s.isClosed = false) (hempty : s.handle = none)
      (hduty : s.duty? h = none)
      (hshift : Shift s.callers s.warden h (some (.start .launching)) callers warden) :
      Move s h.label { s with lock := some h, callers, warden }
  /-- No child can be spawned. -/
  | refused {h : Holder} {cause : IoFault} {callers : Table CallerId Caller} {warden : Warden}
      (hduty : s.duty? h = some (.start .launching))
      (hshift : Shift s.callers s.warden h none callers warden) :
      Move s (.launch h (.refused cause)) { s with lock := none, callers, warden }
  /-- A child is spawned without its standard streams. -/
  | uncaptured {h : Holder} {callers : Table CallerId Caller} {warden : Warden}
      (hduty : s.duty? h = some (.start .launching))
      (hshift : Shift s.callers s.warden h (some (.start .discarding)) callers warden) :
      Move s (.launch h .uncaptured) { s with strays := .running :: s.strays, callers, warden }
  /-- A child is spawned. -/
  | launched {h : Holder} {callers : Table CallerId Caller} {warden : Warden}
      (hduty : s.duty? h = some (.start .launching))
      (hshift : Shift s.callers s.warden h (some (.start (.equipping (s.generation + 1))))
        callers warden) :
      Move s (.launch h .launched)
        { s with
          generation := s.generation + 1
          children := s.children.set (s.generation + 1) (.fresh s.config (h = .warden))
          callers, warden }
  /-- A decoder cannot be spawned. -/
  | unequipped {h : Holder} {g : Generation} {cause : IoFault}
      {callers : Table CallerId Caller} {warden : Warden}
      (hduty : s.duty? h = some (.start (.equipping g)))
      (hshift : Shift s.callers s.warden h (some (.start (.scrapping g cause))) callers warden) :
      Move s (.equip h (.failed cause)) { s with callers, warden }
  /-- A child goes into the slot. -/
  | equipped {h : Holder} {g : Generation} {callers : Table CallerId Caller} {warden : Warden}
      (hduty : s.duty? h = some (.start (.equipping g)))
      (hshift : Shift s.callers s.warden h none callers warden) :
      Move s (.equip h .equipped)
        { s with
          lifecycle := s.lifecycle.enter .running, handle := some g, lock := none, callers, warden }
  /-- A child without its standard streams is reaped. -/
  | discarded {h : Holder} {callers : Table CallerId Caller} {warden : Warden}
      (hduty : s.duty? h = some (.start .discarding))
      (hshift : Shift s.callers s.warden h none callers warden) :
      Move s h.label
        { s with strays := .reaped :: s.strays.tail, lock := none, callers, warden }
  /-- A child without decoders is reaped. -/
  | scrapped {h : Holder} {g : Generation} {cause : IoFault}
      {callers : Table CallerId Caller} {warden : Warden}
      (hduty : s.duty? h = some (.start (.scrapping g cause)))
      (hshift : Shift s.callers s.warden h none callers warden) :
      Move s h.label
        { s with
          children := s.children.modify g ({ · with status := .reaped })
          lock := none, callers, warden }
  /-- The child is taken out of the slot. -/
  | taken {h : Holder} {g : Generation} {callers : Table CallerId Caller} {warden : Warden}
      (hlock : s.lock = none) (hhandle : s.handle = some g) (hduty : s.duty? h = none)
      (hshift : Shift s.callers s.warden h (some (.reap g)) callers warden) :
      Move s h.label
        { s with lifecycle := s.lifecycle.enter .exiting, handle := none, callers, warden }
  /-- A child that was taken out of the slot is reaped. -/
  | reaped {h : Holder} {g : Generation} {callers : Table CallerId Caller} {warden : Warden}
      (hduty : s.duty? h = some (.reap g))
      (hshift : Shift s.callers s.warden h none callers warden) :
      Move s h.label
        { s with
          children := s.children.modify g ({ · with status := .reaped }), callers, warden }
  /-- Shutdown is requested for the first time. -/
  | requested {id : CallerId} {callers : Table CallerId Caller} {warden : Warden}
      (hopen : s.isClosed = false) (hduty : s.duty? (.caller id) = none)
      (hshift : Shift s.callers s.warden (.caller id) (some .announce) callers warden) :
      Move s (.proceed id) { s with isClosed := true, callers, warden }
  /-- It is shown that shutdown was requested. -/
  | announced {id : CallerId} {callers : Table CallerId Caller} {warden : Warden}
      (hlock : s.lock = none) (hduty : s.duty? (.caller id) = some .announce)
      (hshift : Shift s.callers s.warden (.caller id) (some .notify) callers warden) :
      Move s (.proceed id) { s with lifecycle := s.lifecycle.enter .closed, callers, warden }
  /-- The warden is told that shutdown was requested. -/
  | notified {id : CallerId} {callers : Table CallerId Caller} {warden : Warden}
      (hduty : s.duty? (.caller id) = some .notify)
      (hshift : Shift s.callers s.warden (.caller id) none callers warden) :
      Move s (.proceed id) { s with closeNotice := true, callers, warden }
  /-- The warden counts a replacement. -/
  | counted (hwarden : s.warden = .counting) :
      Move s .warden { s with restarts := s.restarts + 1, warden := .looking }
  /-- The warden leaves its loop. -/
  | left (hnotice : s.closeNotice = true) (hduty : s.warden.duty? = none) :
      Move s .closeNoticed { s with closeNotice := false, warden := .closing }
  /-- The warden shows that a replacement is being spawned. -/
  | marked (hlock : s.lock = none) (hwarden : s.warden = .marking) :
      Move s .warden
        { s with lifecycle := s.lifecycle.enter .restarting, warden := .starting .requested }
  /-- The warden empties the slot for the last time. -/
  | cleared {g : Generation} {warden : Warden}
      (hlock : s.lock = none) (hhandle : s.handle = some g) (hwarden : s.warden = .closing)
      (hduty : warden.duty? = some (.reap g)) (hleft : warden.hasLeft = true) :
      Move s .warden
        { s with lifecycle := s.lifecycle.enter .closed, handle := none, warden }

end Sidecar.Supervisor
