import Sidecar.Proofs.Supervisor.Duty

/-!
# Callers do not move each other

A caller goes on by labels of its own, which fit its position (`own_of_step`), and all others leave
it where it is (`get?_callers_of_step`).
-/

namespace Sidecar.Supervisor

/-- The caller whose label it is. -/
def Label.caller? : Label → Option CallerId
  | .call id _ => some id
  | .proceed id => some id
  | .launch (.caller id) _ => some id
  | .equip (.caller id) _ => some id
  | .written id => some id
  | .unwritten id _ => some id
  | .receive id _ => some id
  | .windowOver id => some id
  | .waitOver id _ => some id
  | .leave id => some id
  | _ => none

/-- The labels of a caller among others. -/
def ownLabels (id : CallerId) (labels : List Label) : List Label :=
  labels.filter (·.caller? = some id)

/-- The labels of a caller that are possible where it stands. -/
inductive Own (id : CallerId) : Caller → Label → Prop where
  | proceed {c : Caller} : Own id c (.proceed id)
  | launch {outcome : Launch} : Own id (.starting .launching) (.launch (.caller id) outcome)
  | equip {g : Generation} {outcome : Equip} :
      Own id (.starting (.equipping g)) (.equip (.caller id) outcome)
  | written {g : Generation} {frame : Bytes} : Own id (.writing g frame) (.written id)
  | unwritten {g : Generation} {frame : Bytes} {cause : IoFault} :
      Own id (.writing g frame) (.unwritten id cause)
  | receive {g : Generation} {stream : Stream} : Own id (.awaiting g) (.receive id stream)
  | collect {g : Generation} {lines : List Bytes} {stream : Stream} :
      Own id (.collecting g lines) (.receive id stream)
  | windowOver {g : Generation} {lines : List Bytes} :
      Own id (.collecting g lines) (.windowOver id)
  | waitOver {timeout : Duration} : Own id .waiting (.waitOver id timeout)
  | leave {outcome : Outcome} : Own id (.done outcome) (.leave id)

section

variable {s t : Supervisor} {id : CallerId} {label : Label}

/-- Labels of others do not count among a caller's. -/
theorem ownLabels_concat_of_ne (labels : List Label) (hother : label.caller? ≠ some id) :
    ownLabels id (labels ++ [label]) = ownLabels id labels := by
  simp [ownLabels, hother]

/-- A label of a caller is the last of its own. -/
theorem ownLabels_concat (labels : List Label) (hown : label.caller? = some id) :
    ownLabels id (labels ++ [label]) = ownLabels id labels ++ [label] := by
  simp [ownLabels, hown]

/-- A caller that goes on changes its own position only. -/
theorem callers_of_proceedCaller {c : Caller} (h : s.proceedCaller id c = some t) :
    ∃ c', t.callers = s.callers.set id c' := by
  unfold proceedCaller at h
  split at h
  · split at h
    · cases h
    · split at h <;> cases h
      · next result _ =>
        obtain ⟨outcome, hcallers⟩ := s.callers_finishStart id result
        exact ⟨.done outcome, hcallers⟩
      · next hbegin =>
        obtain rfl := eq_of_beginStart hbegin
        exact ⟨_, rfl⟩
  · obtain ⟨⟨failure, u⟩, habandon, rfl⟩ := Option.map_eq_some_iff.mp h
    obtain ⟨_, _, rfl⟩ := eq_of_abandon habandon
    exact ⟨_, rfl⟩
  all_goals
    repeat' split at h
    all_goals first
      | cases h; done
      | cases h; exact ⟨_, rfl⟩

/-- A caller that takes a token changes its own position only. -/
theorem callers_of_receiveToken {stream : Stream} {c : Caller}
    (h : s.receiveToken id stream c = some t) : ∃ c', t.callers = s.callers.set id c' := by
  unfold receiveToken at h
  repeat' split at h
  all_goals first
    | cases h; done
    | cases h; exact ⟨_, rfl⟩

/-- A caller whose frame was written changes its own position only. -/
theorem callers_of_endWriting {result : Except IoFault Unit} {c : Caller}
    (h : s.endWriting id result c = some t) : ∃ c', t.callers = s.callers.set id c' := by
  unfold endWriting at h
  repeat' split at h
  all_goals first
    | cases h; done
    | cases h; exact ⟨_, rfl⟩

/-- The warden moves no caller. -/
theorem callers_of_proceedWarden (h : s.proceedWarden = some t) : t.callers = s.callers := by
  unfold proceedWarden at h
  repeat' split at h
  all_goals first
    | cases h; done
    | cases h; rfl
    | skip
  · cases h
    exact callers_wardenStarted ..
  · next hbegin =>
    cases h
    rw [eq_of_beginStart hbegin]
  · obtain ⟨⟨failure, u⟩, habandon, rfl⟩ := Option.map_eq_some_iff.mp h
    obtain ⟨_, _, rfl⟩ := eq_of_abandon habandon
    exact callers_wardenStarted ..

private theorem get?_placeStart (start : Start) {holder : Holder} (hne : holder ≠ .caller id) :
    (s.placeStart start holder).callers.get? id = s.callers.get? id := by
  cases holder with
  | warden => rfl
  | caller id' => exact Table.get?_set_of_ne _ _ fun heq ↦ hne (by rw [heq])

private theorem get?_endStart (result : Except Failure Unit) {holder : Holder}
    (hne : holder ≠ .caller id) :
    (s.endStart result holder).callers.get? id = s.callers.get? id := by
  cases holder with
  | warden => rw [endStart, callers_wardenStarted]
  | caller id' =>
    obtain ⟨outcome, hc⟩ := s.callers_finishStart id' result
    rw [endStart, hc]
    exact Table.get?_set_of_ne _ _ fun heq ↦ hne (by rw [heq])

private theorem get?_of_stepLaunch {holder : Holder} {outcome : Launch}
    (h : s.stepLaunch holder outcome = some t) (hne : holder ≠ .caller id) :
    t.callers.get? id = s.callers.get? id := by
  unfold stepLaunch at h
  split at h
  · cases outcome <;> cases h
    · exact get?_endStart _ hne
    · exact get?_placeStart _ hne
    · exact get?_placeStart _ hne
  · cases h

private theorem get?_of_stepEquip {holder : Holder} {outcome : Equip}
    (h : s.stepEquip holder outcome = some t) (hne : holder ≠ .caller id) :
    t.callers.get? id = s.callers.get? id := by
  unfold stepEquip at h
  split at h
  · cases outcome <;> cases h
    · exact get?_endStart _ hne
    · exact get?_placeStart _ hne
  · cases h

private theorem callers_of_stepOutlet {g : Generation} {stream : Stream}
    {f : Outlet → Option Outlet} (h : s.stepOutlet g stream f = some t) :
    t.callers = s.callers := by
  unfold stepOutlet at h
  split at h
  · cases h
  · obtain ⟨o, _, rfl⟩ := Option.map_eq_some_iff.mp h
    rfl

private theorem callers_of_discardToken {stream : Stream} (h : s.discardToken stream = some t) :
    t.callers = s.callers := by
  unfold discardToken at h
  repeat' split at h
  · obtain ⟨o, _, rfl⟩ := Option.map_eq_some_iff.mp h
    rfl
  · cases h
  · cases h

private theorem get?_of_set {c : Option Caller} {c' : Caller} {id' : CallerId}
    (hset : t.callers = s.callers.set id' c') (hne : id' ≠ id) (hpost : s.callers.get? id = c) :
    t.callers.get? id = c := by
  rw [hset, Table.get?_set_of_ne _ _ hne, hpost]

/-- A label that is not a caller's leaves the caller where it is. -/
theorem get?_callers_of_step (h : s.step label = some t) (hother : label.caller? ≠ some id) :
    t.callers.get? id = s.callers.get? id := by
  cases label with
  | call id' call =>
    have hne : id' ≠ id := fun heq ↦ hother (congrArg some heq)
    simp only [step] at h
    split at h
    · cases h
      exact Table.get?_set_of_ne _ _ hne
    · cases h
  | proceed id' =>
    have hne : id' ≠ id := fun heq ↦ hother (congrArg some heq)
    obtain ⟨c, _, hproceed⟩ := Option.bind_eq_some_iff.mp h
    obtain ⟨c', hset⟩ := callers_of_proceedCaller hproceed
    exact get?_of_set hset hne rfl
  | launch holder outcome =>
    refine get?_of_stepLaunch h fun heq ↦ hother ?_
    rw [heq]
    rfl
  | equip holder outcome =>
    refine get?_of_stepEquip h fun heq ↦ hother ?_
    rw [heq]
    rfl
  | written id' =>
    have hne : id' ≠ id := fun heq ↦ hother (congrArg some heq)
    obtain ⟨c, _, hend⟩ := Option.bind_eq_some_iff.mp h
    obtain ⟨c', hset⟩ := callers_of_endWriting hend
    exact get?_of_set hset hne rfl
  | unwritten id' cause =>
    have hne : id' ≠ id := fun heq ↦ hother (congrArg some heq)
    obtain ⟨c, _, hend⟩ := Option.bind_eq_some_iff.mp h
    obtain ⟨c', hset⟩ := callers_of_endWriting hend
    exact get?_of_set hset hne rfl
  | receive id' stream =>
    have hne : id' ≠ id := fun heq ↦ hother (congrArg some heq)
    obtain ⟨c, _, hreceive⟩ := Option.bind_eq_some_iff.mp h
    obtain ⟨c', hset⟩ := callers_of_receiveToken hreceive
    exact get?_of_set hset hne rfl
  | windowOver id' =>
    have hne : id' ≠ id := fun heq ↦ hother (congrArg some heq)
    simp only [step] at h
    repeat' split at h
    all_goals first
      | cases h; done
      | cases h; exact Table.get?_set_of_ne _ _ hne
  | waitOver id' timeout =>
    have hne : id' ≠ id := fun heq ↦ hother (congrArg some heq)
    simp only [step] at h
    repeat' split at h
    all_goals first
      | cases h; done
      | cases h; exact Table.get?_set_of_ne _ _ hne
  | leave id' =>
    have hne : id' ≠ id := fun heq ↦ hother (congrArg some heq)
    simp only [step] at h
    split at h
    · cases h
      exact (Table.get?_erase _ _ _).trans (if_neg hne)
    · cases h
  | warden => rw [callers_of_proceedWarden h]
  | discard stream => rw [callers_of_discardToken h]
  | emit g stream bytes =>
    simp only [step] at h
    rw [callers_of_stepOutlet h]
  | endStream g stream =>
    simp only [step] at h
    rw [callers_of_stepOutlet h]
  | disconnect g stream =>
    simp only [step] at h
    rw [callers_of_stepOutlet h]
  | _ =>
    simp only [step, noticeExit, noticeClose, stepReport] at h
    repeat' split at h
    all_goals first
      | cases h; done
      | cases h; rfl

private theorem startOf?_caller {c : Caller} {start : Start} (hpost : s.callers.get? id = some c)
    (hstart : s.startOf? (.caller id) = some start) : c = .starting start :=
  Option.some.inj (hpost.symm.trans (caller_of_startOf? hstart))

/-- A label of a caller fits its position. -/
theorem own_of_step {c : Caller} (h : s.step label = some t) (hown : label.caller? = some id)
    (hpost : s.callers.get? id = some c) : Own id c label := by
  cases label with
  | call id' call =>
    obtain rfl : id' = id := Option.some.inj hown
    simp only [step, hpost] at h
    cases h
  | proceed id' =>
    obtain rfl : id' = id := Option.some.inj hown
    exact .proceed
  | launch holder outcome =>
    cases holder with
    | warden => cases hown
    | caller id' =>
      obtain rfl : id' = id := Option.some.inj hown
      simp only [step, stepLaunch] at h
      split at h
      · next hstart =>
        rw [startOf?_caller hpost hstart]
        exact .launch
      · cases h
  | equip holder outcome =>
    cases holder with
    | warden => cases hown
    | caller id' =>
      obtain rfl : id' = id := Option.some.inj hown
      simp only [step, stepEquip] at h
      split at h
      · next hstart =>
        rw [startOf?_caller hpost hstart]
        exact .equip
      · cases h
  | written id' =>
    obtain rfl : id' = id := Option.some.inj hown
    simp only [step, hpost, Option.bind_some] at h
    cases c <;> first | exact .written | cases h
  | unwritten id' cause =>
    obtain rfl : id' = id := Option.some.inj hown
    simp only [step, hpost, Option.bind_some] at h
    cases c <;> first | exact .unwritten | cases h
  | receive id' stream =>
    obtain rfl : id' = id := Option.some.inj hown
    simp only [step, hpost, Option.bind_some] at h
    cases c <;> first | exact .receive | exact .collect | cases h
  | windowOver id' =>
    obtain rfl : id' = id := Option.some.inj hown
    simp only [step, hpost] at h
    cases c <;> first | exact .windowOver | cases h
  | waitOver id' timeout =>
    obtain rfl : id' = id := Option.some.inj hown
    simp only [step, hpost] at h
    cases c <;> first | exact .waitOver | cases h
  | leave id' =>
    obtain rfl : id' = id := Option.some.inj hown
    simp only [step, hpost] at h
    cases c <;> first | exact .leave | cases h
  | _ => cases hown

end

end Sidecar.Supervisor
