import Sidecar.Proofs.Supervisor.Run

/-!
# The ways of the warden

The warden goes on by labels of its own, each of which takes it one of its ways (`way_of_step`). All
other labels leave it where it is and count no restart (`unwatched_of_step`).
-/

namespace Sidecar.Supervisor

/-- Whether it is the warden's label. -/
def Label.isWardens : Label → Bool
  | .launch .warden _ => true
  | .equip .warden _ => true
  | .warden => true
  | .exitNoticed => true
  | .closeNoticed => true
  | .restOver => true
  | .discard _ => true
  | .drained => true
  | .graceOver => true
  | _ => false

/-- One step of the warden's way, and what it saw there. -/
inductive Way (s t : Supervisor) : Label → Prop where
  | found {g : Generation} (hhandle : s.handle = some g) (before : s.warden = .looking)
      (after : t.warden = .watching g) : Way s t .warden
  | foundNone (hempty : s.handle = none) (before : s.warden = .looking)
      (after : t.warden = .resting) : Way s t .warden
  | noticedExit {g : Generation} (before : s.warden = .watching g)
      (after : t.warden = .reclaiming g) : Way s t .exitNoticed
  | noticedClose (hnotice : s.closeNotice = true)
      (before : s.warden = .resting ∨ ∃ g, s.warden = .watching g) (after : t.warden = .closing) :
      Way s t .closeNoticed
  | rested (before : s.warden = .resting) (after : t.warden = .checking) : Way s t .restOver
  | reclaimed {g : Generation} (hhandle : s.handle = some g) (before : s.warden = .reclaiming g)
      (after : t.warden = .reaping g) : Way s t .warden
  | missed {g : Generation} (hhandle : s.handle ≠ some g) (before : s.warden = .reclaiming g)
      (after : t.warden = .checking) : Way s t .warden
  | reaped {g : Generation} (before : s.warden = .reaping g) (after : t.warden = .draining g) :
      Way s t .warden
  | discarded {g : Generation} {stream : Stream} (before : s.warden = .draining g)
      (after : t.warden = .draining g) : Way s t (.discard stream)
  | drained {g : Generation} (before : s.warden = .draining g) (after : t.warden = .checking) :
      Way s t .drained
  | checkedClosed (hclosed : s.isClosed = true) (before : s.warden = .checking)
      (after : t.warden = .looking) : Way s t .warden
  | checkedOpen (hopen : s.isClosed = false) (before : s.warden = .checking)
      (after : t.warden = .marking) : Way s t .warden
  | marked (before : s.warden = .marking) (after : t.warden = .starting .requested) :
      Way s t .warden
  | startedClosed (hclosed : s.isClosed = true) (before : s.warden = .starting .requested)
      (after : t.warden = .looking) : Way s t .warden
  | startedFull (hopen : s.isClosed = false) (hfull : s.handle.isSome)
      (before : s.warden = .starting .requested) (after : t.warden = .counting) : Way s t .warden
  | startedEmpty (hopen : s.isClosed = false) (hempty : s.handle = none)
      (before : s.warden = .starting .requested) (after : t.warden = .starting .launching) :
      Way s t .warden
  | refused {cause : IoFault} (before : s.warden = .starting .launching)
      (after : t.warden = .looking) : Way s t (.launch .warden (.refused cause))
  | uncaptured (before : s.warden = .starting .launching)
      (after : t.warden = .starting .discarding) : Way s t (.launch .warden .uncaptured)
  | launched (before : s.warden = .starting .launching)
      (after : t.warden = .starting (.equipping (s.generation + 1))) :
      Way s t (.launch .warden .launched)
  | unequipped {g : Generation} {cause : IoFault} (before : s.warden = .starting (.equipping g))
      (after : t.warden = .starting (.scrapping g cause)) : Way s t (.equip .warden (.failed cause))
  | equipped {g : Generation} (before : s.warden = .starting (.equipping g))
      (after : t.warden = .counting) : Way s t (.equip .warden .equipped)
  | abandoned {start : Start} (hlocked : start ≠ .requested) (before : s.warden = .starting start)
      (after : t.warden = .looking) : Way s t .warden
  | counted (hrestarts : t.restarts = s.restarts + 1) (before : s.warden = .counting)
      (after : t.warden = .looking) : Way s t .warden
  | clearedNone (hempty : s.handle = none) (before : s.warden = .closing)
      (after : t.warden = .releasing) : Way s t .warden
  | cleared {g : Generation} (hhandle : s.handle = some g) (before : s.warden = .closing)
      (after : t.warden = .finishing g ∨ t.warden = .dismissing g) : Way s t .warden
  | dismissed {g : Generation} (before : s.warden = .dismissing g)
      (after : t.warden = .lingering g) : Way s t .warden
  | graceOver {g : Generation} (before : s.warden = .lingering g)
      (after : t.warden = .finishing g) : Way s t .graceOver
  | finished {g : Generation} (before : s.warden = .lingering g ∨ s.warden = .finishing g)
      (after : t.warden = .releasing) : Way s t .warden
  | released (before : s.warden = .releasing) (after : t.warden = .finished) : Way s t .warden

/-- The warden is where it was, and nothing was counted. -/
structure Unwatched (s t : Supervisor) : Prop where
  warden : t.warden = s.warden
  restarts : t.restarts = s.restarts

section

variable {s t : Supervisor} {label : Label} {id : CallerId}

private theorem unwatched_of_proceedCaller {c : Caller} (h : s.proceedCaller id c = some t) :
    Unwatched s t := by
  unfold proceedCaller at h
  split at h
  · split at h
    · cases h
    · split at h <;> cases h
      · exact ⟨warden_finishStart .., restarts_finishStart ..⟩
      · next hbegin =>
        obtain rfl := eq_of_beginStart hbegin
        exact ⟨rfl, rfl⟩
  · obtain ⟨⟨failure, u⟩, habandon, rfl⟩ := Option.map_eq_some_iff.mp h
    obtain ⟨_, _, rfl⟩ := eq_of_abandon habandon
    exact ⟨rfl, rfl⟩
  all_goals
    repeat' split at h
    all_goals first
      | cases h; done
      | cases h; exact ⟨rfl, rfl⟩

private theorem unwatched_of_receiveToken {stream : Stream} {c : Caller}
    (h : s.receiveToken id stream c = some t) : Unwatched s t := by
  unfold receiveToken at h
  repeat' split at h
  all_goals first
    | cases h; done
    | cases h; exact ⟨rfl, rfl⟩

private theorem unwatched_of_endWriting {result : Except IoFault Unit} {c : Caller}
    (h : s.endWriting id result c = some t) : Unwatched s t := by
  unfold endWriting at h
  repeat' split at h
  all_goals first
    | cases h; done
    | cases h; exact ⟨rfl, rfl⟩

private theorem unwatched_of_stepOutlet {g : Generation} {stream : Stream}
    {f : Outlet → Option Outlet} (h : s.stepOutlet g stream f = some t) : Unwatched s t := by
  unfold stepOutlet at h
  split at h
  · cases h
  · obtain ⟨o, _, rfl⟩ := Option.map_eq_some_iff.mp h
    exact ⟨rfl, rfl⟩

/-- A label that is not the warden's leaves the warden where it is and counts nothing. -/
theorem unwatched_of_step (h : s.step label = some t) (hother : label.isWardens = false) :
    Unwatched s t := by
  cases label with
  | proceed id =>
    obtain ⟨c, _, hproceed⟩ := Option.bind_eq_some_iff.mp h
    exact unwatched_of_proceedCaller hproceed
  | launch holder outcome =>
    cases holder with
    | warden => cases hother
    | caller id =>
      simp only [step, stepLaunch] at h
      split at h
      · cases outcome <;> cases h <;> exact ⟨rfl, rfl⟩
      · cases h
  | equip holder outcome =>
    cases holder with
    | warden => cases hother
    | caller id =>
      simp only [step, stepEquip] at h
      split at h
      · cases outcome <;> cases h <;> exact ⟨rfl, rfl⟩
      · cases h
  | receive id stream =>
    obtain ⟨c, _, hreceive⟩ := Option.bind_eq_some_iff.mp h
    exact unwatched_of_receiveToken hreceive
  | written id =>
    obtain ⟨c, _, hend⟩ := Option.bind_eq_some_iff.mp h
    exact unwatched_of_endWriting hend
  | unwritten id cause =>
    obtain ⟨c, _, hend⟩ := Option.bind_eq_some_iff.mp h
    exact unwatched_of_endWriting hend
  | emit g stream bytes =>
    simp only [step] at h
    exact unwatched_of_stepOutlet h
  | endStream g stream =>
    simp only [step] at h
    exact unwatched_of_stepOutlet h
  | disconnect g stream =>
    simp only [step] at h
    exact unwatched_of_stepOutlet h
  | warden => cases hother
  | exitNoticed => cases hother
  | closeNoticed => cases hother
  | restOver => cases hother
  | discard stream => cases hother
  | drained => cases hother
  | graceOver => cases hother
  | _ =>
    simp only [step, stepReport] at h
    repeat' split at h
    all_goals first
      | cases h; done
      | cases h; exact ⟨rfl, rfl⟩

/-! ## The warden's labels -/

private theorem way_of_begin {result : Except Failure Unit}
    (hpost : s.warden = .starting .requested) (hbegin : s.beginStart .warden = .error result) :
    Way s (s.wardenStarted result) .warden := by
  unfold beginStart at hbegin
  split at hbegin
  · next hclosed =>
    cases hbegin
    exact .startedClosed hclosed hpost rfl
  · next hopen =>
    split at hbegin
    · next hfull =>
      cases hbegin
      exact .startedFull (by simpa using hopen) hfull hpost rfl
    · cases hbegin

private theorem way_of_proceedWarden (h : s.proceedWarden = some t) : Way s t .warden := by
  unfold proceedWarden at h
  split at h
  · next hpost =>
    split at h
    · cases h
    · split at h
      · next hhandle =>
        cases h
        exact .found hhandle hpost rfl
      · next hempty =>
        cases h
        exact .foundNone hempty hpost rfl
  · next hpost =>
    split at h
    · cases h
    · split at h
      · next hhandle =>
        cases h
        exact .reclaimed hhandle hpost rfl
      · next hhandle =>
        cases h
        exact .missed hhandle hpost rfl
  · next hpost =>
    cases h
    exact .reaped hpost rfl
  · next hpost =>
    cases h
    cases hclosed : s.isClosed with
    | true => exact .checkedClosed hclosed hpost rfl
    | false => exact .checkedOpen hclosed hpost rfl
  · next hpost =>
    split at h
    · cases h
    · cases h
      exact .marked hpost rfl
  · next hpost =>
    split at h
    · cases h
    · split at h
      · next result hbegin =>
        cases h
        exact way_of_begin hpost hbegin
      · next u hbegin =>
        cases h
        unfold beginStart at hbegin
        split at hbegin
        · cases hbegin
        · next hopen =>
          split at hbegin
          · cases hbegin
          · next hempty =>
            cases hbegin
            exact .startedEmpty (by simpa using hopen) (by simpa using hempty) hpost rfl
  · next start hrequested hpost =>
    obtain ⟨⟨failure, u⟩, habandon, rfl⟩ := Option.map_eq_some_iff.mp h
    exact .abandoned hrequested hpost rfl
  · next hpost =>
    cases h
    exact .counted rfl hpost rfl
  · next hpost =>
    split at h
    · cases h
    · split at h
      · next hempty =>
        cases h
        exact .clearedNone hempty hpost rfl
      · next g hhandle =>
        cases h
        refine .cleared hhandle hpost ?_
        dsimp only
        split
        · exact .inl rfl
        · exact .inr rfl
  · next hpost =>
    cases h
    exact .dismissed hpost rfl
  · next hpost =>
    split at h
    · split at h
      · cases h
      · cases h
        exact .finished (.inl hpost) rfl
    · cases h
  · next hpost =>
    cases h
    exact .finished (.inr hpost) rfl
  · next hpost =>
    cases h
    exact .released hpost rfl
  all_goals cases h

private theorem way_of_stepLaunch {outcome : Launch} (h : s.stepLaunch .warden outcome = some t) :
    Way s t (.launch .warden outcome) := by
  unfold stepLaunch at h
  split at h
  · next hstart =>
    have hpost := warden_of_startOf? hstart
    cases outcome with
    | refused cause =>
      cases h
      exact .refused hpost rfl
    | uncaptured =>
      cases h
      exact .uncaptured hpost rfl
    | launched =>
      cases h
      exact .launched hpost rfl
  · cases h

private theorem way_of_stepEquip {outcome : Equip} (h : s.stepEquip .warden outcome = some t) :
    Way s t (.equip .warden outcome) := by
  unfold stepEquip at h
  split at h
  · next g hstart =>
    have hpost := warden_of_startOf? hstart
    cases outcome with
    | failed cause =>
      cases h
      exact .unequipped hpost rfl
    | equipped =>
      cases h
      exact .equipped hpost rfl
  · cases h

/-- A label of the warden takes it one of its ways. -/
theorem way_of_step (h : s.step label = some t) (hwardens : label.isWardens = true) :
    Way s t label := by
  cases label with
  | launch holder outcome =>
    cases holder with
    | warden => exact way_of_stepLaunch h
    | caller id => cases hwardens
  | equip holder outcome =>
    cases holder with
    | warden => exact way_of_stepEquip h
    | caller id => cases hwardens
  | warden => exact way_of_proceedWarden h
  | exitNoticed =>
    simp only [step, noticeExit] at h
    split at h
    · next g hpost =>
      split at h
      · split at h <;> cases h
        exact .noticedExit hpost rfl
      · cases h
    · cases h
  | closeNoticed =>
    simp only [step, noticeClose] at h
    split at h
    · next g hpost =>
      split at h
      · next hnotice =>
        cases h
        exact .noticedClose hnotice (.inr ⟨g, hpost⟩) rfl
      · cases h
    · next hpost =>
      split at h
      · next hnotice =>
        cases h
        exact .noticedClose hnotice (.inl hpost) rfl
      · cases h
    · cases h
  | restOver =>
    simp only [step] at h
    split at h
    · next hpost =>
      cases h
      exact .rested hpost rfl
    · cases h
  | discard stream =>
    simp only [step, discardToken] at h
    split at h
    · next g hpost =>
      split at h
      · obtain ⟨⟨token, o⟩, _, rfl⟩ := Option.map_eq_some_iff.mp h
        exact .discarded hpost hpost
      · cases h
    · cases h
  | drained =>
    simp only [step] at h
    split at h
    · next g hpost =>
      cases h
      exact .drained hpost rfl
    · cases h
  | graceOver =>
    simp only [step] at h
    split at h
    · next g hpost =>
      cases h
      exact .graceOver hpost rfl
    · cases h
  | _ => cases hwardens

/-- The warden comes to drain a child from reaping it. -/
theorem reaping_of_step {g : Generation} (h : s.step label = some t)
    (hbefore : s.warden ≠ .draining g) (hafter : t.warden = .draining g) :
    label = .warden ∧ s.warden = .reaping g := by
  by_cases hwardens : label.isWardens = true
  · cases way_of_step h hwardens with
    | reaped before after =>
      cases after.symm.trans hafter
      exact ⟨rfl, before⟩
    | discarded before after =>
      cases after.symm.trans hafter
      exact absurd before hbefore
    | cleared _ _ after => obtain after | after := after <;> cases after.symm.trans hafter
    | _ => next _ after => cases after.symm.trans hafter
  · have hsame := (unwatched_of_step h (by simpa using hwardens)).warden
    exact absurd (hsame.symm.trans hafter) hbefore

/-! ## The count -/

private theorem restarts_of_proceedWarden (h : s.proceedWarden = some t)
    (hpost : s.warden ≠ .counting) : t.restarts = s.restarts := by
  unfold proceedWarden at h
  split at h
  case h_6 =>
    split at h
    · cases h
    · split at h
      · cases h
        exact restarts_wardenStarted ..
      · next hbegin =>
        cases h
        rw [eq_of_beginStart hbegin]
  case h_7 =>
    obtain ⟨⟨failure, u⟩, habandon, rfl⟩ := Option.map_eq_some_iff.mp h
    obtain ⟨_, _, rfl⟩ := eq_of_abandon habandon
    exact restarts_wardenStarted ..
  case h_8 hcounting => exact absurd hcounting hpost
  all_goals
    repeat' split at h
    all_goals first
      | cases h; done
      | cases h; rfl

/-- Nothing is counted but by the warden where it stands to count. -/
theorem restarts_of_step (h : s.step label = some t)
    (hpost : label = .warden → s.warden ≠ .counting) : t.restarts = s.restarts := by
  by_cases hwardens : label.isWardens = true
  · cases label with
    | warden => exact restarts_of_proceedWarden h (hpost rfl)
    | launch holder outcome =>
      cases holder with
      | caller id => cases hwardens
      | warden =>
        simp only [step, stepLaunch] at h
        split at h
        · cases outcome <;> cases h <;> rfl
        · cases h
    | equip holder outcome =>
      cases holder with
      | caller id => cases hwardens
      | warden =>
        simp only [step, stepEquip] at h
        split at h
        · cases outcome <;> cases h <;> rfl
        · cases h
    | discard stream =>
      simp only [step, discardToken] at h
      repeat' split at h
      · obtain ⟨o, _, rfl⟩ := Option.map_eq_some_iff.mp h
        rfl
      · cases h
      · cases h
    | _ =>
      simp only [step, noticeExit, noticeClose] at h
      repeat' split at h
      all_goals first
        | cases h; done
        | cases h; rfl
        | cases hwardens
  · exact (unwatched_of_step h (by simpa using hwardens)).restarts

end

end Sidecar.Supervisor
