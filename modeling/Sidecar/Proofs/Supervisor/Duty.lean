import Sidecar.Supervisor.Step

/-!
# What the threads of a supervisor have begun

Most of what a thread does concerns nobody else. What does is a duty: the slot is locked for a
start, a child was taken out of the slot and is not reaped yet, or shutdown was requested and is
not known to everybody yet. The invariants of a supervisor speak of the duties of its threads, so
that positions without a duty need not be told apart.
-/

namespace Sidecar.Supervisor

/-- What a thread has begun and has to bring to an end. -/
inductive Duty where
  /-- It has locked the slot and is starting a child. -/
  | start (start : Start)
  /-- It has taken a child out of the slot, which is not reaped yet. -/
  | reap (g : Generation)
  /-- It has requested shutdown and has not shown it yet. -/
  | announce
  /-- It has shown that shutdown was requested and has not told the warden yet. -/
  | notify
  deriving DecidableEq, Repr

/-- The child that is in the hands of a thread with a duty. -/
def Duty.child? : Duty → Option Generation
  | .start (.equipping g) => some g
  | .start (.scrapping g _) => some g
  | .reap g => some g
  | _ => none

/-- The duty of a start, which has none until it locks the slot. -/
def Start.duty? : Start → Option Duty
  | .requested => none
  | start => some (.start start)

/-- The duty of a caller. -/
def Caller.duty? : Caller → Option Duty
  | .starting start => start.duty?
  | .reaping g => some (.reap g)
  | .announcing => some .announce
  | .notifying => some .notify
  | _ => none

namespace Warden

/-- The duty of the warden. -/
def duty? : Warden → Option Duty
  | .starting start => start.duty?
  | .reaping g => some (.reap g)
  | .dismissing g => some (.reap g)
  | .lingering g => some (.reap g)
  | .finishing g => some (.reap g)
  | _ => none

/-- Whether the warden has emptied the slot for the last time. -/
def hasCleared : Warden → Bool
  | .dismissing _ => true
  | .lingering _ => true
  | .finishing _ => true
  | .releasing => true
  | .finished => true
  | _ => false

/-- Whether the warden has left its loop. -/
def hasLeft : Warden → Bool
  | .closing => true
  | warden => warden.hasCleared

/-- In its loop the warden has not emptied the slot for the last time. -/
theorem hasCleared_of_not_hasLeft {warden : Warden} (h : warden.hasLeft = false) :
    warden.hasCleared = false := by
  cases warden <;> first | rfl | cases h

end Warden

/-- The duty of a thread, given where all of them stand. -/
def dutyAmong? (callers : Table CallerId Caller) (warden : Warden) : Holder → Option Duty
  | .caller id => (callers.get? id).bind Caller.duty?
  | .warden => warden.duty?

/-- The duty of a thread. -/
def duty? (s : Supervisor) : Holder → Option Duty := dutyAmong? s.callers s.warden

/-- One thread takes another duty, or none. The warden stays on its side of the loop. -/
structure Shift (callers : Table CallerId Caller) (warden : Warden) (h : Holder)
    (duty : Option Duty) (callers' : Table CallerId Caller) (warden' : Warden) : Prop where
  duties : ∀ h', dutyAmong? callers' warden' h' =
    if h' = h then duty else dutyAmong? callers warden h'
  hasLeft : warden'.hasLeft = warden.hasLeft
  hasCleared : warden'.hasCleared = warden.hasCleared

section

variable {s : Supervisor} {id : CallerId} {g : Generation}

/-- A caller that goes somewhere takes the duty that it has there. -/
theorem shift_caller (callers : Table CallerId Caller) (warden : Warden) (id : CallerId)
    (c : Caller) : Shift callers warden (.caller id) c.duty? (callers.set id c) warden := by
  refine ⟨?_, rfl, rfl⟩
  intro h'
  cases h' with
  | warden => rfl
  | caller id' =>
    simp only [dutyAmong?, Table.get?_set, Holder.caller.injEq]
    by_cases hid : id = id'
    · rw [if_pos hid, if_pos hid.symm]
      rfl
    · rw [if_neg hid, if_neg (Ne.symm hid)]

/-- The warden takes the duty that it has where it goes, and the callers keep theirs. -/
theorem duties_warden (callers : Table CallerId Caller) (warden warden' : Warden) (h : Holder) :
    dutyAmong? callers warden' h =
      if h = .warden then warden'.duty? else dutyAmong? callers warden h := by
  cases h with
  | warden => rfl
  | caller id => rfl

/-- The warden takes the duty that it has where it goes. -/
theorem shift_warden (callers : Table CallerId Caller) {warden : Warden} (warden' : Warden)
    (hleft : warden'.hasLeft = warden.hasLeft)
    (hcleared : warden'.hasCleared = warden.hasCleared) :
    Shift callers warden .warden warden'.duty? callers warden' :=
  ⟨duties_warden callers warden warden', hleft, hcleared⟩

/-- The warden takes the duty that it has where it goes in its loop. -/
theorem shift_inLoop (callers : Table CallerId Caller) {warden : Warden} (warden' : Warden)
    (hleft : warden.hasLeft = false) (hleft' : warden'.hasLeft = false) :
    Shift callers warden .warden warden'.duty? callers warden' := by
  refine shift_warden callers warden' (hleft'.trans hleft.symm) ?_
  rw [Warden.hasCleared_of_not_hasLeft hleft, Warden.hasCleared_of_not_hasLeft hleft']

/-- A caller that goes from where it has no duty to where it has none changes no duty. -/
theorem duties_set {c : Caller} (hbefore : s.duty? (.caller id) = none) (hafter : c.duty? = none)
    (h : Holder) : dutyAmong? (s.callers.set id c) s.warden h = s.duty? h := by
  rw [(shift_caller s.callers s.warden id c).duties, hafter]
  split
  · next heq => rw [heq, hbefore]
  · rfl

/-- A warden that goes where it has the same duty changes no duty. -/
theorem duties_goTo (s : Supervisor) (warden : Warden)
    (hduty : warden.duty? = s.warden.duty?) (h : Holder) :
    dutyAmong? s.callers warden h = s.duty? h := by
  cases h with
  | warden => exact hduty
  | caller id => rfl

/-! ## Children to be reaped -/

private theorem duty?_ne_reap (start : Start) (g : Generation) : start.duty? ≠ some (.reap g) := by
  cases start <;> simp [Start.duty?]

/-- A caller that has to reap a child is about to. -/
theorem caller_of_reap (hduty : s.duty? (.caller id) = some (.reap g)) :
    s.callers.get? id = some (.reaping g) := by
  obtain ⟨c, hc, hcaller⟩ := Option.bind_eq_some_iff.mp hduty
  rw [hc]
  cases c with
  | starting start => exact absurd hcaller (duty?_ne_reap start g)
  | reaping g' =>
    obtain rfl : g' = g := Duty.reap.inj (Option.some.inj hcaller)
    rfl
  | _ => cases hcaller

/-- A warden that has to reap a child is about to, or gives it time before. -/
theorem warden_of_reap (hduty : s.duty? .warden = some (.reap g)) :
    s.warden = .reaping g ∨ s.warden = .dismissing g ∨ s.warden = .lingering g ∨
      s.warden = .finishing g := by
  have hwarden : s.warden.duty? = some (.reap g) := hduty
  cases hpost : s.warden with
  | starting start =>
    rw [hpost] at hwarden
    exact absurd hwarden (duty?_ne_reap start g)
  | _ =>
    rw [hpost] at hwarden
    cases hwarden
    try simp

/-! ## Starts -/

/-- A start that locks the slot changes nothing else. -/
theorem eq_of_beginStart {t : Supervisor} {h : Holder} (hbegin : s.beginStart h = .ok t) :
    t = { s with lock := some h } := by
  unfold beginStart at hbegin
  split at hbegin
  · cases hbegin
  · split at hbegin <;> cases hbegin
    rfl

/-- A start that failed changes its child, if there is one, and unlocks the slot. -/
theorem eq_of_abandon {t : Supervisor} {start : Start} {failure : Failure}
    (habandon : s.abandon start = some (failure, t)) :
    ∃ children strays, t = { s with children, strays, lock := none } := by
  cases start <;> cases habandon <;> exact ⟨_, _, rfl⟩

/-- A caller that starts a child stands at its start. -/
theorem caller_of_startOf? {id : CallerId} {start : Start}
    (hstart : s.startOf? (.caller id) = some start) :
    s.callers.get? id = some (.starting start) := by
  simp only [startOf?] at hstart
  split at hstart
  · next heq => rw [heq, Option.some.inj hstart]
  · cases hstart

/-- A warden that starts a child stands at its start. -/
theorem warden_of_startOf? {start : Start} (hstart : s.startOf? .warden = some start) :
    s.warden = .starting start := by
  simp only [startOf?] at hstart
  split at hstart
  · next heq => rw [heq, Option.some.inj hstart]
  · cases hstart

/-- A start that has locked the slot is a duty. -/
theorem duty?_of_startOf? {h : Holder} {start : Start} (hstart : s.startOf? h = some start) :
    s.duty? h = start.duty? := by
  cases h with
  | caller id =>
    simp only [duty?, dutyAmong?, caller_of_startOf? hstart]
    rfl
  | warden =>
    simp only [duty?, dutyAmong?, warden_of_startOf? hstart]
    rfl

private theorem hasLeft_of_startOf? {start : Start} (hstart : s.startOf? .warden = some start) :
    s.warden.hasLeft = false := by
  rw [warden_of_startOf? hstart]
  rfl

/-- A start goes on, and nothing but its thread's position changes. -/
theorem placeStart_shift {h : Holder} {start : Start} (next : Start)
    (hstart : s.startOf? h = some start) :
    ∃ callers warden, s.placeStart next h = { s with callers, warden } ∧
      Shift s.callers s.warden h next.duty? callers warden := by
  cases h with
  | caller id => exact ⟨_, _, rfl, shift_caller s.callers s.warden id (.starting next)⟩
  | warden =>
    have hleft := hasLeft_of_startOf? hstart
    exact ⟨_, _, rfl, shift_inLoop s.callers (.starting next) hleft rfl⟩

/-- A start ends, and nothing but its thread's position changes. -/
theorem endStart_shift {h : Holder} {start : Start} (result : Except Failure Unit)
    (hstart : s.startOf? h = some start) :
    ∃ callers warden, s.endStart result h = { s with callers, warden } ∧
      Shift s.callers s.warden h none callers warden := by
  cases h with
  | caller id =>
    cases result with
    | ok => exact ⟨_, _, rfl, shift_caller s.callers s.warden id (.done .ok)⟩
    | error failure =>
      exact ⟨_, _, rfl, shift_caller s.callers s.warden id (.done (.failed failure))⟩
  | warden =>
    have hleft := hasLeft_of_startOf? hstart
    cases result with
    | ok => exact ⟨_, _, rfl, shift_inLoop s.callers .counting hleft rfl⟩
    | error failure => exact ⟨_, _, rfl, shift_inLoop s.callers .looking hleft rfl⟩

end

end Sidecar.Supervisor
