import Sidecar.Proofs.Supervisor.Moves

/-!
# Every step is a move

The steps of callers, of starts, of the warden and of children are taken apart one kind after the
other, and `move_of_step` puts them together.
-/

namespace Sidecar.Supervisor

/-! ## Moves of callers and children -/

section

variable {s t : Supervisor} {id : CallerId} {label : Label}

/-- A child whose standing is kept keeps it among the others. -/
theorem standingAmong?_modify {children : Table Generation Child} {g : Generation}
    {f : Child → Child} (hf : ∀ c, children.get? g = some c → (f c).standing = c.standing)
    (g' : Generation) :
    standingAmong? (children.modify g f) g' = standingAmong? children g' := by
  simp only [standingAmong?, Table.get?_modify]
  split
  · next heq =>
    rw [← heq]
    cases hc : children.get? g with
    | none => rfl
    | some c =>
      simp only [Option.map_some]
      rw [hf c hc]
  · rfl

private theorem duty?_caller {c : Caller} (hpost : s.callers.get? id = some c) :
    s.duty? (.caller id) = c.duty? := by
  simp only [duty?, dutyAmong?, hpost]
  rfl

private theorem move_place {before after : Caller} {children : Table Generation Child}
    (hpost : s.callers.get? id = some before) (hbefore : before.duty? = none)
    (hafter : after.duty? = none) (hstanding : ∀ g, standingAmong? children g = s.standing? g) :
    Move s label ({ s with children }.place id after) :=
  .talk (duties_set ((duty?_caller hpost).trans hbefore) hafter) hstanding .same

private theorem move_modify {g : Generation} {f : Child → Child}
    (hf : ∀ c, s.children.get? g = some c → (f c).standing = c.standing) :
    Move s label (s.modifyChild g f) :=
  .talk (fun _ ↦ rfl) (standingAmong?_modify hf) .same

private theorem move_abandon {h : Holder} {start : Start} {failure : Failure} {u : Supervisor}
    (hstart : s.startOf? h = some start) (habandon : s.abandon start = some (failure, u)) :
    Move s h.label (u.endStart (.error failure) h) := by
  have hduty := duty?_of_startOf? hstart
  cases start with
  | discarding =>
    cases habandon
    obtain ⟨callers, warden, heq, hshift⟩ := endStart_shift
      (s := { s with strays := .reaped :: s.strays.tail, lock := none })
      (.error s.uncapturedFailure) hstart
    rw [heq]
    exact .discarded hduty hshift
  | scrapping g cause =>
    cases habandon
    obtain ⟨callers, warden, heq, hshift⟩ := endStart_shift
      (s := { (s.reap g) with lock := none }) (.error (.io cause)) hstart
    rw [heq]
    exact .scrapped hduty hshift
  | requested => cases habandon
  | launching => cases habandon
  | equipping g => cases habandon

private theorem move_beginStart {h : Holder} {u : Supervisor}
    (hlock : s.lock = none) (hstart : s.startOf? h = some .requested)
    (hbegin : s.beginStart h = .ok u) : Move s h.label (u.placeStart .launching h) := by
  unfold beginStart at hbegin
  split at hbegin
  · cases hbegin
  · next hopen =>
    split at hbegin
    · cases hbegin
    · next hempty =>
      cases hbegin
      obtain ⟨callers, warden, heq, hshift⟩ := placeStart_shift
        (s := { s with lock := some h }) .launching hstart
      rw [heq]
      exact .locked hlock (by simpa using hopen) (by simpa using hempty)
        (duty?_of_startOf? hstart) hshift

private theorem abandon_of_proceedCaller {start : Start} (hstart : start ≠ .requested)
    (h : s.proceedCaller id (.starting start) = some t) :
    ∃ failure u, s.abandon start = some (failure, u) ∧ t = u.finish id (.failed failure) := by
  cases start with
  | requested => exact absurd rfl hstart
  | _ =>
    simp only [proceedCaller] at h
    obtain ⟨⟨failure, u⟩, habandon, rfl⟩ := Option.map_eq_some_iff.mp h
    exact ⟨failure, u, habandon, rfl⟩

/-- A caller that goes on makes a move. -/
theorem move_of_proceedCaller {c : Caller} (hpost : s.callers.get? id = some c)
    (h : s.proceedCaller id c = some t) : Move s (.proceed id) t := by
  have hduty := duty?_caller hpost
  cases c with
  | starting start =>
    have hstart : s.startOf? (.caller id) = some start := by simp only [startOf?, hpost]
    by_cases hrequested : start = .requested
    · subst hrequested
      simp only [proceedCaller] at h
      split at h
      · cases h
      · next hlock =>
        split at h
        · next result hbegin =>
          cases h
          cases result <;> exact move_place hpost rfl rfl (fun _ ↦ rfl)
        · next u hbegin =>
          cases h
          exact move_beginStart (by simpa using hlock) hstart hbegin
    · obtain ⟨failure, u, habandon, rfl⟩ := abandon_of_proceedCaller hrequested h
      exact move_abandon hstart habandon
  | stopping =>
    simp only [proceedCaller] at h
    split at h
    · cases h
    · next hlock =>
      split at h
      · cases h
        exact move_place hpost rfl rfl (fun _ ↦ rfl)
      · next g hhandle =>
        cases h
        exact .taken (h := .caller id) (by simpa using hlock) hhandle hduty
          (shift_caller s.callers s.warden id (.reaping g))
  | reaping g =>
    cases h
    exact .reaped (h := .caller id) hduty (shift_caller s.callers s.warden id (.done .ok))
  | sending frame =>
    simp only [proceedCaller] at h
    split at h
    · cases h
    · split at h <;> cases h <;> exact move_place hpost rfl rfl (fun _ ↦ rfl)
  | entering g frame =>
    simp only [proceedCaller] at h
    split at h
    · cases h
    · split at h
      · cases h
      · split at h
        · cases h
          exact move_place hpost rfl rfl (standingAmong?_modify fun _ _ ↦ rfl)
        · cases h
          exact move_place hpost rfl rfl (fun _ ↦ rfl)
  | closing =>
    simp only [proceedCaller] at h
    split at h
    · cases h
      exact move_place hpost rfl rfl (fun _ ↦ rfl)
    · next hopen =>
      cases h
      exact .requested (by simpa using hopen) hduty
        (shift_caller s.callers s.warden id .announcing)
  | announcing =>
    simp only [proceedCaller] at h
    split at h
    · cases h
    · next hlock =>
      cases h
      exact .announced (by simpa using hlock) hduty
        (shift_caller s.callers s.warden id .notifying)
  | notifying =>
    cases h
    exact .notified hduty (shift_caller s.callers s.warden id (.done .ok))
  | waiting =>
    simp only [proceedCaller] at h
    split at h
    · cases h
      exact move_place hpost rfl rfl (fun _ ↦ rfl)
    · cases h
  | targeting cell =>
    simp only [proceedCaller] at h
    split at h
    · cases h
    · next k hcell =>
      split at h
      · cases h
        exact move_place hpost rfl rfl (fun _ ↦ rfl)
      · next hopen =>
        cases h
        exact .talk (duties_set hduty rfl) (fun _ ↦ rfl)
          (.requested hpost hcell (by simpa using hopen))
  | signalling g =>
    simp only [proceedCaller] at h
    split at h
    · cases h
    · split at h
      · cases h
        refine move_place hpost rfl rfl (standingAmong?_modify fun c _ ↦ ?_)
        split
        · next hrunning => simp [Child.standing, hrunning]
        · rfl
      · cases h
        exact move_place hpost rfl rfl (fun _ ↦ rfl)
  | writing g frame => cases h
  | awaiting g => cases h
  | collecting g lines => cases h
  | done outcome => cases h

private theorem standing_setOutlet (c : Child) (stream : Stream) (o : Outlet) :
    (c.setOutlet stream o).standing = c.standing := by
  cases stream <;> rfl

/-- A caller that takes a token, or sees that none will come, makes a move. -/
theorem move_of_receiveToken {c : Caller} {stream : Stream} (hpost : s.callers.get? id = some c)
    (h : s.receiveToken id stream c = some t) : Move s label t := by
  cases c with
  | awaiting g =>
    simp only [receiveToken] at h
    split at h
    · cases h
    · split at h
      · split at h <;> cases h <;>
          exact move_place hpost rfl rfl
            (standingAmong?_modify fun c _ ↦ standing_setOutlet c _ _)
      · split at h
        · cases h
          exact move_place hpost rfl rfl (fun _ ↦ rfl)
        · cases h
  | collecting g lines =>
    simp only [receiveToken] at h
    split at h
    · split at h
      · cases h
        exact move_place hpost rfl rfl
          (standingAmong?_modify fun c _ ↦ standing_setOutlet c _ _)
      · split at h
        · cases h
          exact move_place hpost rfl rfl (fun _ ↦ rfl)
        · cases h
    · cases h
  | _ => cases h

/-- A caller whose frame was written, or could not be, makes a move. -/
theorem move_of_endWriting {c : Caller} {result : Except IoFault Unit}
    (hpost : s.callers.get? id = some c) (h : s.endWriting id result c = some t) :
    Move s label t := by
  cases c with
  | writing g frame =>
    cases result <;> cases h <;>
      exact move_place hpost rfl rfl (standingAmong?_modify fun _ _ ↦ rfl)
  | _ => cases h

private theorem move_of_stepOutlet {g : Generation} {stream : Stream}
    {f : Outlet → Option Outlet} (h : s.stepOutlet g stream f = some t) : Move s label t := by
  simp only [stepOutlet] at h
  split at h
  · cases h
  · obtain ⟨o, _, rfl⟩ := Option.map_eq_some_iff.mp h
    exact move_modify fun c _ ↦ standing_setOutlet c stream o

private theorem move_of_stepReport {g : Generation} {stream : Stream}
    (h : s.stepReport g stream = some t) : Move s label t := by
  simp only [stepReport] at h
  split at h
  · cases h
  · split at h
    · cases h
      exact move_modify fun c _ ↦ standing_setOutlet c stream _
    · cases h

/-! ## Moves of starts -/

/-- A start that spawns a child, or cannot, makes a move. -/
theorem move_of_stepLaunch {h : Holder} {outcome : Launch}
    (hstep : s.stepLaunch h outcome = some t) :
    Move s (.launch h outcome) t := by
  simp only [stepLaunch] at hstep
  split at hstep
  · next hstart =>
    have hduty := duty?_of_startOf? hstart
    cases outcome with
    | refused cause =>
      cases hstep
      obtain ⟨callers, warden, heq, hshift⟩ := endStart_shift (s := { s with lock := none })
        (.error (.spawn s.config.commandLine cause)) hstart
      rw [heq]
      exact .refused hduty hshift
    | uncaptured =>
      cases hstep
      obtain ⟨callers, warden, heq, hshift⟩ := placeStart_shift
        (s := { s with strays := .running :: s.strays }) .discarding hstart
      rw [heq]
      exact .uncaptured hduty hshift
    | launched =>
      cases hstep
      obtain ⟨callers, warden, heq, hshift⟩ := placeStart_shift
        (s := { s with
          generation := s.generation + 1
          children := s.children.set (s.generation + 1) (.fresh s.config (h = .warden)) })
        (.equipping (s.generation + 1)) hstart
      rw [heq]
      exact .launched hduty hshift
  · cases hstep

/-- A start that spawns the decoders of its child, or cannot, makes a move. -/
theorem move_of_stepEquip {h : Holder} {outcome : Equip} (hstep : s.stepEquip h outcome = some t) :
    Move s (.equip h outcome) t := by
  simp only [stepEquip] at hstep
  split at hstep
  · next g hstart =>
    have hduty := duty?_of_startOf? hstart
    cases outcome with
    | failed cause =>
      cases hstep
      obtain ⟨callers, warden, heq, hshift⟩ := placeStart_shift (.scrapping g cause) hstart
      rw [heq]
      exact .unequipped hduty hshift
    | equipped =>
      cases hstep
      obtain ⟨callers, warden, heq, hshift⟩ := endStart_shift
        (s := { (s.enter .running) with handle := some g, lock := none }) (.ok ()) hstart
      rw [heq]
      exact .equipped hduty hshift
  · cases hstep

/-! ## Moves of the warden -/

private theorem duty?_warden {warden : Warden} (hpost : s.warden = warden) :
    s.duty? .warden = warden.duty? := by
  rw [duty?, dutyAmong?, hpost]

private theorem move_goTo {before after : Warden} (hpost : s.warden = before)
    (hduty : after.duty? = before.duty?) (hleft : after.hasLeft = before.hasLeft)
    (hcleared : after.hasCleared = before.hasCleared) :
    Move s label { s with warden := after } := by
  subst hpost
  exact .patrol hduty (fun _ ↦ rfl) hleft (fun h ↦ .inl (hcleared ▸ h))

/-- The warden, when it goes on, makes a move. -/
theorem move_of_proceedWarden (h : s.proceedWarden = some t) : Move s .warden t := by
  unfold proceedWarden at h
  split at h
  · next hpost =>
    split at h
    · cases h
    · split at h <;> cases h <;> exact move_goTo hpost rfl rfl rfl
  · next g hpost =>
    split at h
    · cases h
    · next hlock =>
      split at h
      · next hhandle =>
        cases h
        exact .taken (h := .warden) (by simpa using hlock) hhandle (duty?_warden hpost)
          (shift_inLoop s.callers (.reaping g) (by rw [hpost]; rfl) rfl)
      · cases h
        exact move_goTo hpost rfl rfl rfl
  · next g hpost =>
    cases h
    exact .reaped (h := .warden) (duty?_warden hpost)
      (shift_inLoop s.callers (.draining g) (by rw [hpost]; rfl) rfl)
  · next hpost =>
    cases h
    refine move_goTo hpost ?_ ?_ ?_ <;> split <;> rfl
  · next hpost =>
    split at h
    · cases h
    · next hlock =>
      cases h
      exact .marked (by simpa using hlock) hpost
  · next hpost =>
    have hstart : s.startOf? .warden = some .requested := by simp only [startOf?, hpost]
    split at h
    · cases h
    · next hlock =>
      split at h
      · next result hbegin =>
        cases h
        cases result <;> exact move_goTo hpost rfl rfl rfl
      · next u hbegin =>
        cases h
        exact move_beginStart (by simpa using hlock) hstart hbegin
  · next start _ hpost =>
    have hstart : s.startOf? .warden = some start := by simp only [startOf?, hpost]
    obtain ⟨⟨failure, u⟩, habandon, rfl⟩ := Option.map_eq_some_iff.mp h
    exact move_abandon hstart habandon
  · next hpost =>
    cases h
    exact .counted hpost
  · next hpost =>
    split at h
    · cases h
    · next hlock =>
      split at h
      · next hempty =>
        cases h
        refine .patrol (by rw [hpost]; rfl) (fun _ ↦ rfl) (by rw [hpost]; rfl) fun _ ↦ .inr ?_
        exact ⟨by rw [hpost]; rfl, hempty⟩
      · next g hhandle =>
        cases h
        refine .cleared (by simpa using hlock) hhandle hpost ?_ ?_ <;> split <;> rfl
  · next g hpost =>
    cases h
    refine .patrol (by rw [hpost]; rfl) (standingAmong?_modify fun c _ ↦ ?_)
      (by rw [hpost]; rfl) (fun _ ↦ .inl (by rw [hpost]; rfl))
    split <;> rfl
  · next g hpost =>
    split at h
    · split at h
      · cases h
      · cases h
        exact .reaped (h := .warden) (duty?_warden hpost)
          (shift_warden s.callers .releasing (by rw [hpost]; rfl) (by rw [hpost]; rfl))
    · cases h
  · next g hpost =>
    cases h
    exact .reaped (h := .warden) (duty?_warden hpost)
      (shift_warden s.callers .releasing (by rw [hpost]; rfl) (by rw [hpost]; rfl))
  · next hpost =>
    cases h
    exact move_goTo hpost rfl rfl rfl
  all_goals cases h

private theorem move_of_noticeExit (h : s.noticeExit = some t) : Move s label t := by
  unfold noticeExit at h
  split at h
  · next g hpost =>
    split at h
    · split at h
      · cases h
        exact .patrol (by rw [hpost]; rfl) (standingAmong?_modify fun _ _ ↦ rfl)
          (by rw [hpost]; rfl) (fun hcleared ↦ by cases hcleared)
      · cases h
    · cases h
  · cases h

private theorem move_of_noticeClose (h : s.noticeClose = some t) : Move s .closeNoticed t := by
  unfold noticeClose at h
  split at h
  · next g hpost =>
    split at h
    · next hnotice =>
      cases h
      exact .left hnotice (by rw [hpost]; rfl)
    · cases h
  · next hpost =>
    split at h
    · next hnotice =>
      cases h
      exact .left hnotice (by rw [hpost]; rfl)
    · cases h
  · cases h

private theorem move_of_discardToken {stream : Stream} (h : s.discardToken stream = some t) :
    Move s label t := by
  unfold discardToken at h
  split at h
  · split at h
    · obtain ⟨⟨token, o⟩, _, rfl⟩ := Option.map_eq_some_iff.mp h
      exact move_modify fun c _ ↦ standing_setOutlet c stream o
    · cases h
  · cases h

/-! ## Moves of calls that begin or are left, and of exits -/

private theorem move_of_call {call : Call} (h : s.step (.call id call) = some t) :
    Move s (.call id call) t := by
  simp only [step] at h
  split at h
  · next hpost =>
    cases h
    refine .talk (duties_set ?_ ?_) (fun _ ↦ rfl) .same
    · simp only [duty?, dutyAmong?, hpost]
      rfl
    · cases call <;> rfl
  · cases h

private theorem move_of_leave (h : s.step (.leave id) = some t) : Move s (.leave id) t := by
  simp only [step] at h
  split at h
  · next hpost =>
    cases h
    refine .talk (fun h ↦ ?_) (fun _ ↦ rfl) .same
    cases h with
    | warden => rfl
    | caller id' =>
      simp only [duty?, dutyAmong?, Table.get?_erase]
      split
      · next heq =>
        subst heq
        rw [hpost]
        rfl
      · rfl
  · cases h

private theorem move_of_exit {g : Generation} (h : s.step (.exit g) = some t) :
    Move s (.exit g) t := by
  simp only [step] at h
  split at h
  · next c hchild =>
    split at h
    · next hrunning =>
      cases h
      refine move_modify fun c' hc' ↦ ?_
      obtain rfl : c = c' := Option.some.inj (hchild.symm.trans hc')
      simp [Child.standing, hrunning]
    · cases h
  · cases h

/-! ## All moves -/

/-- Every step is a move. -/
theorem move_of_step (h : s.step label = some t) : Move s label t := by
  cases label with
  | call id call => exact move_of_call h
  | proceed id =>
    obtain ⟨c, hpost, hproceed⟩ := Option.bind_eq_some_iff.mp h
    exact move_of_proceedCaller hpost hproceed
  | launch holder outcome => exact move_of_stepLaunch h
  | equip holder outcome => exact move_of_stepEquip h
  | written id =>
    obtain ⟨c, hpost, hend⟩ := Option.bind_eq_some_iff.mp h
    exact move_of_endWriting hpost hend
  | unwritten id cause =>
    obtain ⟨c, hpost, hend⟩ := Option.bind_eq_some_iff.mp h
    exact move_of_endWriting hpost hend
  | receive id stream =>
    obtain ⟨c, hpost, hreceive⟩ := Option.bind_eq_some_iff.mp h
    exact move_of_receiveToken hpost hreceive
  | windowOver id =>
    simp only [step] at h
    split at h
    · next hpost =>
      split at h
      · split at h
        · cases h
          exact move_place hpost rfl rfl (fun _ ↦ rfl)
        · cases h
      · cases h
    · cases h
  | waitOver id timeout =>
    simp only [step] at h
    split at h
    · next hpost =>
      split at h
      · cases h
      · cases h
        exact move_place hpost rfl rfl (fun _ ↦ rfl)
    · cases h
  | leave id => exact move_of_leave h
  | handle cell =>
    simp only [step] at h
    split at h
    · cases h
    · split at h
      · next hhandle hfree =>
        cases h
        exact .talk (fun _ ↦ rfl) (fun _ ↦ rfl) (.taken hhandle hfree)
      · cases h
  | warden => exact move_of_proceedWarden h
  | exitNoticed => exact move_of_noticeExit h
  | closeNoticed => exact move_of_noticeClose h
  | restOver =>
    simp only [step] at h
    split at h
    · next hpost =>
      cases h
      exact move_goTo hpost rfl rfl rfl
    · cases h
  | discard stream => exact move_of_discardToken h
  | drained =>
    simp only [step] at h
    split at h
    · next hpost =>
      cases h
      exact move_goTo hpost rfl rfl rfl
    · cases h
  | graceOver =>
    simp only [step] at h
    split at h
    · next hpost =>
      cases h
      exact move_goTo hpost rfl rfl rfl
    · cases h
  | emit g stream bytes =>
    simp only [step] at h
    exact move_of_stepOutlet h
  | endStream g stream =>
    simp only [step] at h
    exact move_of_stepOutlet h
  | disconnect g stream =>
    simp only [step] at h
    exact move_of_stepOutlet h
  | report g stream => exact move_of_stepReport h
  | exit g => exact move_of_exit h

end

end Sidecar.Supervisor
