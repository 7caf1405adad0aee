import Sidecar.Proofs.Supervisor.Custody
import Sidecar.Proofs.Supervisor.Positions
import Sidecar.Proofs.Supervisor.Replacements
import Sidecar.Proofs.Supervisor.Touch

/-!
# Starts

A start of a child finds that there is nothing to do, or locks the slot (`begin_of_step`). From then
on a step of any thread either takes the start on as the system lets it, or leaves the start and the
slot as they are (`startStep_of_step`).
-/

namespace Sidecar.Supervisor

/-- Why a start fails with a label, if it does: what the system says when the thread's child or its
decoders are spawned. -/
def fault? (s : Supervisor) (h : Holder) : Label → Option Failure
  | .launch h' (.refused cause) => if h' = h then some (.spawn s.config.commandLine cause) else none
  | .launch h' .uncaptured => if h' = h then some s.uncapturedFailure else none
  | .equip h' (.failed cause) => if h' = h then some (.io cause) else none
  | _ => none

/-- The faults that have befallen a start. -/
def faults (s : Supervisor) (h : Holder) (labels : List Label) : List Failure :=
  labels.filterMap (s.fault? h)

/-- A thread is done with a start that has come to something. A warden keeps no failure: it looks
into the slot again, and it counts a success. -/
def StartEnded (s : Supervisor) : Holder → Except Failure Unit → Prop
  | .caller id, .ok () => s.callers.get? id = some (.done .ok)
  | .caller id, .error failure => s.callers.get? id = some (.done (.failed failure))
  | .warden, .ok () => s.warden = .counting
  | .warden, .error _ => s.warden = .looking

/-- What a step can do while a thread has locked the slot for a start. -/
inductive StartStep (s : Supervisor) (h : Holder) : Start → Label → Supervisor → Prop where
  /-- The start stays where it is. -/
  | aside {start : Start} {label : Label} {t : Supervisor} (hstart : t.startOf? h = some start)
      (hhandle : t.handle = s.handle) (hlifecycle : t.lifecycle = s.lifecycle)
      (hgeneration : t.generation = s.generation) (hfault : s.fault? h label = none)
      (hlabel : label ≠ .equip .warden .equipped) : StartStep s h start label t
  /-- No child can be spawned. -/
  | refused {cause : IoFault} :
      StartStep s h .launching (.launch h (.refused cause))
        ({ s with lock := none }.endStart (.error (.spawn s.config.commandLine cause)) h)
  /-- A child is spawned without its standard streams. -/
  | uncaptured :
      StartStep s h .launching (.launch h .uncaptured)
        ({ s with strays := .running :: s.strays }.placeStart .discarding h)
  /-- A child is spawned. -/
  | launched :
      StartStep s h .launching (.launch h .launched)
        ({ s with
            generation := s.generation + 1
            children := s.children.set (s.generation + 1) (.fresh s.config (h = Holder.warden)) }
          |>.placeStart (.equipping (s.generation + 1)) h)
  /-- A decoder cannot be spawned. -/
  | unequipped {g : Generation} {cause : IoFault} :
      StartStep s h (.equipping g) (.equip h (.failed cause)) (s.placeStart (.scrapping g cause) h)
  /-- The child goes into the slot. -/
  | equipped {g : Generation} :
      StartStep s h (.equipping g) (.equip h .equipped)
        ({ (s.enter .running) with handle := some g, lock := none }.endStart (.ok ()) h)
  /-- What was spawned is reaped. -/
  | abandoned {start : Start} {failure : Failure} {t : Supervisor}
      (habandon : s.abandon start = some (failure, t)) :
      StartStep s h start h.label (t.endStart (.error failure) h)

section

variable {s t u : Supervisor} {h : Holder} {start : Start} {label : Label}

/-! ## Positions -/

/-- A start that goes on changes nothing but its thread's position. -/
theorem placeStart_eq (s : Supervisor) (start : Start) (h : Holder) :
    ∃ callers warden, s.placeStart start h = { s with callers, warden } := by
  cases h <;> exact ⟨_, _, rfl⟩

/-- A start that ends changes nothing but its thread's position. -/
theorem endStart_eq (s : Supervisor) (result : Except Failure Unit) (h : Holder) :
    ∃ callers warden, s.endStart result h = { s with callers, warden } := by
  cases h <;> cases result <;> exact ⟨_, _, rfl⟩

/-- A start that goes on stands where it goes. -/
theorem startOf?_placeStart (s : Supervisor) (start : Start) (h : Holder) :
    (s.placeStart start h).startOf? h = some start := by
  cases h with
  | caller id => simp [placeStart, place, startOf?]
  | warden => rfl

/-- A start that has ended stands nowhere. -/
theorem startOf?_endStart (s : Supervisor) (result : Except Failure Unit) (h : Holder) :
    (s.endStart result h).startOf? h = none := by
  cases h with
  | caller id => cases result <;> simp [endStart, finishStart, finish, place, startOf?]
  | warden => cases result <;> rfl

/-- A start that has ended has come to its result. -/
theorem startEnded_endStart (s : Supervisor) (result : Except Failure Unit) (h : Holder) :
    (s.endStart result h).StartEnded h result := by
  cases h with
  | caller id => cases result <;> exact Table.get?_set_self ..
  | warden => cases result <;> rfl

/-! ## The first step -/

/-- A thread that begins to start a child finds that there is nothing to do, or locks the slot. -/
theorem begin_of_step (hstart : s.startOf? h = some .requested) (hstep : s.step h.label = some t) :
    s.lock = none ∧
      ((∃ result, s.beginStart h = .error result ∧ t = s.endStart result h) ∨
        ∃ u, s.beginStart h = .ok u ∧ t = u.placeStart .launching h) := by
  cases h with
  | caller id =>
    simp only [Holder.label, step, caller_of_startOf? hstart, Option.bind_some,
      proceedCaller] at hstep
    split at hstep
    · cases hstep
    · next hlock =>
      refine ⟨by simpa using hlock, ?_⟩
      split at hstep
      · next result hbegin =>
        cases hstep
        exact .inl ⟨result, hbegin, rfl⟩
      · next u hbegin =>
        cases hstep
        exact .inr ⟨u, hbegin, rfl⟩
  | warden =>
    simp only [Holder.label, step, proceedWarden, warden_of_startOf? hstart] at hstep
    split at hstep
    · cases hstep
    · next hlock =>
      refine ⟨by simpa using hlock, ?_⟩
      split at hstep
      · next result hbegin =>
        cases hstep
        exact .inl ⟨result, hbegin, rfl⟩
      · next u hbegin =>
        cases hstep
        exact .inr ⟨u, hbegin, rfl⟩

/-- A start that locks the slot finds it empty, and shutdown was not requested. -/
theorem empty_of_beginStart (hbegin : s.beginStart h = .ok u) :
    s.isClosed = false ∧ s.handle = none := by
  unfold beginStart at hbegin
  split at hbegin
  · cases hbegin
  · next hopen =>
    split at hbegin
    · cases hbegin
    · next hempty => exact ⟨by simpa using hopen, by simpa using hempty⟩

/-- A start finds nothing to do because shutdown was requested, or because there is a child. -/
theorem result_of_beginStart {result : Except Failure Unit}
    (hbegin : s.beginStart h = .error result) :
    s.isClosed = true ∧ result = .error .closed ∨ s.isClosed = false ∧ result = .ok () := by
  unfold beginStart at hbegin
  split at hbegin
  · next hclosed =>
    cases hbegin
    exact .inl ⟨hclosed, rfl⟩
  · next hopen =>
    split at hbegin
    · cases hbegin
      exact .inr ⟨by simpa using hopen, rfl⟩
    · cases hbegin

/-- A thread that begins to start a child after shutdown was requested is done at once. -/
theorem over_of_isClosed (hstart : s.startOf? h = some .requested) (hlock : s.lock = none)
    (hclosed : s.isClosed = true) : ∃ t, s.step h.label = some t ∧ t.startOf? h = none := by
  have hbegin : s.beginStart h = .error (.error .closed) := if_pos hclosed
  cases h with
  | caller id =>
    simp only [Holder.label, step, caller_of_startOf? hstart, Option.bind_some, proceedCaller,
      hlock, hbegin]
    exact ⟨_, rfl, startOf?_endStart s (.error .closed) (.caller id)⟩
  | warden =>
    simp only [Holder.label, step, proceedWarden, warden_of_startOf? hstart, hlock, hbegin]
    exact ⟨_, rfl, rfl⟩

/-! ## Steps while the slot is locked -/

/-- A thread that has locked the slot for a start goes on by giving the start up. -/
theorem step_label_of_startOf? (hstart : s.startOf? h = some start) (hlocked : start ≠ .requested) :
    s.step h.label =
      (s.abandon start).map fun (failure, s) ↦ s.endStart (.error failure) h := by
  cases h with
  | caller id =>
    have hpost := caller_of_startOf? hstart
    cases start with
    | requested => exact absurd rfl hlocked
    | _ =>
      simp only [Holder.label, step, hpost, Option.bind_some]
      rfl
  | warden =>
    have hpost := warden_of_startOf? hstart
    cases start with
    | requested => exact absurd rfl hlocked
    | _ =>
      simp only [Holder.label, step, proceedWarden, hpost]
      rfl

/-- Whether a label is one of a thread that starts a child. -/
private def IsStarters (h : Holder) (label : Label) : Prop :=
  label = h.label ∨ (∃ outcome, label = .launch h outcome) ∨ ∃ outcome, label = .equip h outcome

/-- A label of a thread that has locked the slot takes its start on. -/
private theorem startStep_of_own (hstart : s.startOf? h = some start) (hlocked : start ≠ .requested)
    (hown : IsStarters h label) (hstep : s.step label = some t) : StartStep s h start label t := by
  obtain rfl | ⟨outcome, rfl⟩ | ⟨outcome, rfl⟩ := hown
  · rw [step_label_of_startOf? hstart hlocked] at hstep
    obtain ⟨⟨failure, u⟩, habandon, rfl⟩ := Option.map_eq_some_iff.mp hstep
    exact .abandoned habandon
  · simp only [step, stepLaunch, hstart] at hstep
    cases start with
    | launching =>
      cases outcome <;> cases hstep
      · exact .refused
      · exact .uncaptured
      · exact .launched
    | _ => cases hstep
  · simp only [step, stepEquip, hstart] at hstep
    cases start with
    | equipping g =>
      cases outcome <;> cases hstep
      · exact .equipped
      · exact .unequipped
    | _ => cases hstep

/-- A label of others leaves a start where it is. -/
private theorem startOf?_of_others (hstart : s.startOf? h = some start)
    (hother : ¬ IsStarters h label) (hstep : s.step label = some t) :
    t.startOf? h = some start := by
  cases h with
  | caller id =>
    have hpost := caller_of_startOf? hstart
    have hnot : label.caller? ≠ some id := by
      intro hown
      apply hother
      cases own_of_step hstep hown hpost with
      | proceed => exact .inl rfl
      | launch => exact .inr (.inl ⟨_, rfl⟩)
      | equip => exact .inr (.inr ⟨_, rfl⟩)
    simp only [startOf?, get?_callers_of_step hstep hnot, hpost]
  | warden =>
    have hpost := warden_of_startOf? hstart
    have hsame : t.warden = s.warden := by
      cases hwardens : label.isWardens with
      | false => exact (unwatched_of_step hstep hwardens).warden
      | true =>
        cases label with
        | launch holder outcome =>
          cases holder with
          | warden => exact absurd (.inr (.inl ⟨outcome, rfl⟩)) hother
          | caller id => cases hwardens
        | equip holder outcome =>
          cases holder with
          | warden => exact absurd (.inr (.inr ⟨outcome, rfl⟩)) hother
          | caller id => cases hwardens
        | warden => exact absurd (.inl rfl) hother
        | exitNoticed => simp [step, noticeExit, hpost] at hstep
        | closeNoticed => simp [step, noticeClose, hpost] at hstep
        | discard stream => simp [step, discardToken, hpost] at hstep
        | restOver => simp [step, hpost] at hstep
        | drained => simp [step, hpost] at hstep
        | graceOver => simp [step, hpost] at hstep
        | _ => cases hwardens
    simp only [startOf?, hsame, hpost]

/-- A thread that is starting a child has the duty to bring that to an end. -/
private theorem duty?_of_locked (hstart : s.startOf? h = some start)
    (hlocked : start ≠ .requested) : s.duty? h = some (.start start) := by
  rw [duty?_of_startOf? hstart]
  cases start with
  | requested => exact absurd rfl hlocked
  | _ => rfl

/-- While the slot is locked for a start, others neither change it nor spawn a child. -/
private theorem slot_of_others (hs : s.Locked) (hlock : s.lock = some h)
    (hother : ¬ IsStarters h label) (hmove : Move s label t) :
    t.handle = s.handle ∧ t.lifecycle = s.lifecycle ∧ t.generation = s.generation := by
  have hsole {h' : Holder} {start' : Start} (hduty : s.duty? h' = some (.start start')) : h' = h :=
    Option.some.inj ((hs.lock_eq hduty).symm.trans hlock)
  have hnone : s.lock ≠ none := by
    rw [hlock]
    exact Option.some_ne_none h
  cases hmove with
  | locked hfree _ _ _ _ => exact absurd hfree hnone
  | taken hfree _ _ _ => exact absurd hfree hnone
  | announced hfree _ _ => exact absurd hfree hnone
  | marked hfree _ => exact absurd hfree hnone
  | cleared hfree _ _ _ _ => exact absurd hfree hnone
  | launched hduty _ =>
    obtain rfl := hsole hduty
    exact absurd (.inr (.inl ⟨_, rfl⟩)) hother
  | equipped hduty _ =>
    obtain rfl := hsole hduty
    exact absurd (.inr (.inr ⟨_, rfl⟩)) hother
  | _ => exact ⟨rfl, rfl, rfl⟩

/-- A step while a thread has locked the slot takes its start on, or leaves that where it is. -/
theorem startStep_of_step (hs : s.Reachable) (hstart : s.startOf? h = some start)
    (hlocked : start ≠ .requested) (hstep : s.step label = some t) :
    StartStep s h start label t := by
  by_cases hown : IsStarters h label
  · exact startStep_of_own hstart hlocked hown hstep
  · have hlock := hs.locked.lock_eq (duty?_of_locked hstart hlocked)
    obtain ⟨hhandle, hlifecycle, hgeneration⟩ :=
      slot_of_others hs.locked hlock hown (move_of_step hstep)
    refine .aside (startOf?_of_others hstart hown hstep) hhandle hlifecycle hgeneration ?_ ?_
    · cases label with
      | launch h' outcome =>
        have hne : h' ≠ h := fun heq ↦ hown (.inr (.inl ⟨outcome, by rw [heq]⟩))
        cases outcome <;> simp [fault?, hne]
      | equip h' outcome =>
        have hne : h' ≠ h := fun heq ↦ hown (.inr (.inr ⟨outcome, by rw [heq]⟩))
        cases outcome <;> simp [fault?, hne]
      | _ => rfl
    · -- A warden that put a child into the slot would have locked it, and so be the thread itself.
      rintro rfl
      simp only [step, stepEquip] at hstep
      split at hstep
      · next hwarden =>
        have hduty := duty?_of_locked hwarden (by simp)
        obtain rfl := Option.some.inj ((hs.locked.lock_eq hduty).symm.trans hlock)
        exact hown (.inr (.inr ⟨_, rfl⟩))
      · cases hstep

/-! ## What befalls a start -/

/-- A fault that comes with the last label is the last one. -/
theorem faults_concat (s : Supervisor) (h : Holder) (labels : List Label) (label : Label) :
    s.faults h (labels ++ [label]) = s.faults h labels ++ (s.fault? h label).toList := by
  rw [faults, faults, List.filterMap_append]
  cases hfault : s.fault? h label <;> simp [hfault]

/-- What befalls a start does not depend on the state otherwise. -/
theorem fault?_of_config (hconfig : t.config = s.config) (h : Holder) (label : Label) :
    t.fault? h label = s.fault? h label := by
  unfold fault?
  simp only [uncapturedFailure, hconfig]

end

end Sidecar.Supervisor
