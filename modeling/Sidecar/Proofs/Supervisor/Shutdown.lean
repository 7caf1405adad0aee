import Sidecar.Proofs.Supervisor.Custody
import Sidecar.Proofs.Supervisor.Positions

/-!
# Shutdown

Shutdown is requested once, shown in the slot, and told to the warden, in this order. Once it is
shown the supervisor is sealed: nobody can start a child any more (`Sealed.move`). Everything that
follows from the request, up to the warden's end, happens to a sealed supervisor (`Shutdown`), and
once the warden has ended the slot stays empty (`Released.move`).
-/

namespace Sidecar.Supervisor

/-- It was shown that shutdown was requested, and the slot is not locked. -/
structure Sealed (s : Supervisor) : Prop where
  requested : s.isClosed = true
  shown : s.lifecycle = .closed
  unlocked : s.lock = none

/-- The supervisor is sealed and has no child, and the warden will not take one. -/
structure Released (s : Supervisor) : Prop extends s.Sealed where
  empty : s.handle = none
  idle : s.duty? .warden = none

/-- What is known wherever the threads stand between the request and the warden's end. -/
structure Shutdown (s : Supervisor) : Prop where
  announcing : ∀ id, s.duty? (.caller id) = some .announce → s.isClosed = true
  notifying : ∀ id, s.duty? (.caller id) = some .notify → s.Sealed
  noticed : s.closeNotice = true → s.Sealed
  left : s.warden.hasLeft = true → s.Sealed
  cleared : s.warden.hasCleared = true → s.handle = none

section

variable {s t u : Supervisor} {label : Label} {h : Holder} {duty : Option Duty} {id : CallerId}

/-! ## Sealed supervisors -/

/-- Nobody is starting a child under a seal. -/
theorem Sealed.duty?_ne (hs : s.Sealed) (hlocked : s.Locked) (start : Start) :
    s.duty? h ≠ some (.start start) := by
  intro hduty
  have hlock := hlocked.lock_eq hduty
  rw [hs.unlocked] at hlock
  cases hlock

private theorem enter_of_closed {present next : Lifecycle} (h : present = .closed) :
    present.enter next = .closed := by
  rw [h, Lifecycle.enter_closed]

/-- No move breaks a seal, and none spawns a child under it. -/
theorem Sealed.move (hs : s.Sealed) (hlocked : s.Locked) (hmove : Move s label t) :
    t.Sealed ∧ t.generation = s.generation ∧ t.strays = s.strays := by
  have hnone := fun h ↦ hs.duty?_ne (h := h) hlocked
  obtain ⟨hrequested, hshown, hunlocked⟩ := hs
  cases hmove with
  | locked _ hopen _ _ _ =>
    rw [hrequested] at hopen
    cases hopen
  | refused hduty _ => exact absurd hduty (hnone _ _)
  | uncaptured hduty _ => exact absurd hduty (hnone _ _)
  | launched hduty _ => exact absurd hduty (hnone _ _)
  | unequipped hduty _ => exact absurd hduty (hnone _ _)
  | equipped hduty _ => exact absurd hduty (hnone _ _)
  | discarded hduty _ => exact absurd hduty (hnone _ _)
  | scrapped hduty _ => exact absurd hduty (hnone _ _)
  | taken _ _ _ _ => exact ⟨⟨hrequested, enter_of_closed hshown, hunlocked⟩, rfl, rfl⟩
  | announced _ _ _ => exact ⟨⟨hrequested, enter_of_closed hshown, hunlocked⟩, rfl, rfl⟩
  | marked _ _ => exact ⟨⟨hrequested, enter_of_closed hshown, hunlocked⟩, rfl, rfl⟩
  | cleared _ _ _ _ _ => exact ⟨⟨hrequested, enter_of_closed hshown, hunlocked⟩, rfl, rfl⟩
  | requested _ _ _ => exact ⟨⟨rfl, hshown, hunlocked⟩, rfl, rfl⟩
  | _ => exact ⟨⟨hrequested, hshown, hunlocked⟩, rfl, rfl⟩

/-- A seal is never broken, and no child is spawned under it. -/
theorem Sealed.reaches (hs : s.Sealed) (hlocked : s.Locked) (hreach : Reaches s t) :
    t.Sealed ∧ t.generation = s.generation ∧ t.strays = s.strays := by
  have hall : t.Locked ∧ t.Sealed ∧ t.generation = s.generation ∧ t.strays = s.strays := by
    refine hreach.induction (P := fun t ↦ t.Locked ∧ t.Sealed ∧ t.generation = s.generation ∧
      t.strays = s.strays) (fun u label v hu hmove ↦ ?_) ⟨hlocked, hs, rfl, rfl⟩
    obtain ⟨hulocked, husealed, hgeneration, hstrays⟩ := hu
    obtain ⟨hvsealed, hgeneration', hstrays'⟩ := husealed.move hulocked hmove
    exact ⟨hulocked.move hmove, hvsealed, hgeneration'.trans hgeneration, hstrays'.trans hstrays⟩
  exact hall.2

/-- The request is never taken back. -/
theorem isClosed_of_move (hmove : Move s label t) (hclosed : s.isClosed = true) :
    t.isClosed = true := by
  cases hmove with
  | requested _ _ _ => rfl
  | _ => exact hclosed

/-! ## From the request to the warden's end -/

private theorem Shutdown.of_callers (hs : s.Shutdown)
    (hclosed : s.isClosed = true → t.isClosed = true) (hsealed : s.Sealed → t.Sealed)
    (hannounce : ∀ id, t.duty? (.caller id) = some .announce →
      s.duty? (.caller id) = some .announce)
    (hnotify : ∀ id, t.duty? (.caller id) = some .notify → s.duty? (.caller id) = some .notify)
    (hnotice : t.closeNotice = true → s.closeNotice = true)
    (hleft : t.warden.hasLeft = true → s.warden.hasLeft = true)
    (hcleared : t.warden.hasCleared = true → t.handle = none) : t.Shutdown where
  announcing id hid := hclosed (hs.announcing id (hannounce id hid))
  notifying id hid := hsealed (hs.notifying id (hnotify id hid))
  noticed h := hsealed (hs.noticed (hnotice h))
  left h := hsealed (hs.left (hleft h))
  cleared := hcleared

private theorem Shutdown.of_shift (hs : s.Shutdown)
    (hshift : Shift s.callers s.warden h duty t.callers t.warden)
    (hclosed : s.isClosed = true → t.isClosed = true) (hsealed : s.Sealed → t.Sealed)
    (hannounce : duty ≠ some .announce) (hnotify : duty ≠ some .notify)
    (hnotice : t.closeNotice = s.closeNotice)
    (hhandle : s.warden.hasCleared = true → s.handle = none → t.handle = none) : t.Shutdown := by
  have hbefore : ∀ id d, duty ≠ some d → t.duty? (.caller id) = some d →
      s.duty? (.caller id) = some d := by
    intro id d hne hd
    rw [duty?, hshift.duties] at hd
    split at hd
    · exact absurd hd hne
    · exact hd
  refine hs.of_callers hclosed hsealed (fun id ↦ hbefore id .announce hannounce)
    (fun id ↦ hbefore id .notify hnotify) (hnotice ▸ id) (fun h ↦ ?_) (fun h ↦ ?_)
  · rwa [hshift.hasLeft] at h
  · rw [hshift.hasCleared] at h
    exact hhandle h (hs.cleared h)

private theorem hasLeft_of_hasCleared {warden : Warden} (h : warden.hasCleared = true) :
    warden.hasLeft = true := by
  cases hleft : warden.hasLeft with
  | true => rfl
  | false =>
    rw [Warden.hasCleared_of_not_hasLeft hleft] at h
    cases h

private theorem Shutdown.requested (hs : s.Shutdown) (hclosed : t.isClosed = true)
    (hsealed : s.Sealed → t.Sealed)
    (hshift : Shift s.callers s.warden (.caller id) (some .announce) t.callers t.warden)
    (hnotice : t.closeNotice = s.closeNotice) (hhandle : t.handle = s.handle) : t.Shutdown := by
  refine ⟨fun _ _ ↦ hclosed, fun id' hid ↦ hsealed (hs.notifying id' ?_),
    fun h ↦ hsealed (hs.noticed (hnotice ▸ h)), fun h ↦ hsealed (hs.left (hshift.hasLeft ▸ h)),
    fun h ↦ hhandle.trans (hs.cleared (hshift.hasCleared ▸ h))⟩
  rw [duty?, hshift.duties] at hid
  split at hid
  · cases hid
  · exact hid

private theorem Shutdown.of_sealed (ht : t.Sealed)
    (hcleared : t.warden.hasCleared = true → t.handle = none) : t.Shutdown :=
  ⟨fun _ _ ↦ ht.requested, fun _ _ ↦ ht, fun _ ↦ ht, fun _ ↦ ht, hcleared⟩

private theorem enter_closed_eq (present : Lifecycle) : present.enter .closed = .closed := by
  cases present <;> rfl

/-- A move keeps what is known of a shutdown. -/
theorem Shutdown.move (hs : s.Shutdown) (hlocked : s.Locked) (hmove : Move s label t) :
    t.Shutdown := by
  have hclosed := isClosed_of_move hmove
  have hsealed : s.Sealed → t.Sealed := fun h ↦ (h.move hlocked hmove).1
  cases hmove with
  | talk hduty _ _ =>
    exact hs.of_callers hclosed hsealed (fun _ h ↦ (hduty _).symm.trans h)
      (fun _ h ↦ (hduty _).symm.trans h) id id hs.cleared
  | patrol _ _ hleft hcleared =>
    refine hs.of_callers hclosed hsealed (fun _ ↦ id) (fun _ ↦ id) id (fun h ↦ hleft ▸ h)
      (fun h ↦ ?_)
    rcases hcleared h with hbefore | ⟨_, hempty⟩
    · exact hs.cleared hbefore
    · exact hempty
  | locked _ _ _ _ hshift =>
    exact hs.of_shift hshift hclosed hsealed (by simp) (by simp) rfl (fun _ ↦ id)
  | refused _ hshift =>
    exact hs.of_shift hshift hclosed hsealed (by simp) (by simp) rfl (fun _ ↦ id)
  | uncaptured _ hshift =>
    exact hs.of_shift hshift hclosed hsealed (by simp) (by simp) rfl (fun _ ↦ id)
  | launched _ hshift =>
    exact hs.of_shift hshift hclosed hsealed (by simp) (by simp) rfl (fun _ ↦ id)
  | unequipped _ hshift =>
    exact hs.of_shift hshift hclosed hsealed (by simp) (by simp) rfl (fun _ ↦ id)
  | equipped hduty hshift =>
    -- A warden that has left its loop found the supervisor sealed, so that nothing is started.
    refine hs.of_shift hshift hclosed hsealed (by simp) (by simp) rfl fun hcleared _ ↦ ?_
    exact absurd hduty ((hs.left (hasLeft_of_hasCleared hcleared)).duty?_ne hlocked _)
  | discarded _ hshift =>
    exact hs.of_shift hshift hclosed hsealed (by simp) (by simp) rfl (fun _ ↦ id)
  | scrapped _ hshift =>
    exact hs.of_shift hshift hclosed hsealed (by simp) (by simp) rfl (fun _ ↦ id)
  | taken _ _ _ hshift =>
    exact hs.of_shift hshift hclosed hsealed (by simp) (by simp) rfl (fun _ _ ↦ rfl)
  | reaped _ hshift =>
    exact hs.of_shift hshift hclosed hsealed (by simp) (by simp) rfl (fun _ ↦ id)
  | requested _ _ hshift => exact hs.requested rfl hsealed hshift rfl rfl
  | @announced id _ _ hlock hduty hshift =>
    exact .of_sealed ⟨hs.announcing id hduty, enter_closed_eq s.lifecycle, hlock⟩
      fun h ↦ hs.cleared (hshift.hasCleared ▸ h)
  | @notified id _ _ hduty hshift =>
    exact .of_sealed (hsealed (hs.notifying id hduty)) fun h ↦ hs.cleared (hshift.hasCleared ▸ h)
  | counted _ =>
    exact hs.of_callers hclosed hsealed (fun _ ↦ id) (fun _ ↦ id) id (fun h ↦ by cases h)
      (fun h ↦ by cases h)
  | left hnotice _ => exact .of_sealed (hsealed (hs.noticed hnotice)) fun h ↦ by cases h
  | marked _ _ =>
    exact hs.of_callers hclosed hsealed (fun _ ↦ id) (fun _ ↦ id) id (fun h ↦ by cases h)
      (fun h ↦ by cases h)
  | cleared _ _ hwarden _ _ =>
    exact .of_sealed (hsealed (hs.left (by rw [hwarden]; rfl))) fun _ ↦ rfl

/-- Wherever the threads stand, this is known of a shutdown. -/
theorem Reachable.shutdown (hs : s.Reachable) : s.Shutdown := by
  refine hs.induction (fun config ↦ ⟨?_, ?_, ?_, ?_, ?_⟩)
    fun _ _ _ hs hshutdown hmove ↦ hshutdown.move hs.locked hmove
  all_goals intros; contradiction

/-! ## Released supervisors -/

private theorem Released.of_shift (hs : s.Released) (ht : t.Sealed) (hhandle : t.handle = s.handle)
    (hduty : s.duty? h ≠ none) (hshift : Shift s.callers s.warden h duty t.callers t.warden) :
    t.Released := by
  refine ⟨ht, hhandle.trans hs.empty, ?_⟩
  have hne : .warden ≠ h := fun heq ↦ hduty (heq ▸ hs.idle)
  rw [duty?, hshift.duties, if_neg hne]
  exact hs.idle

/-- Once the slot was emptied for the last time it stays empty. -/
theorem Released.move (hs : s.Released) (hlocked : s.Locked) (hmove : Move s label t) :
    t.Released := by
  have ht := (hs.toSealed.move hlocked hmove).1
  have hnone := fun h ↦ hs.toSealed.duty?_ne (h := h) hlocked
  cases hmove with
  | talk hduty _ _ => exact ⟨ht, hs.empty, (hduty .warden).trans hs.idle⟩
  | patrol hduty _ _ _ => exact ⟨ht, hs.empty, hduty.trans hs.idle⟩
  | locked _ hopen _ _ _ =>
    rw [hs.requested] at hopen
    cases hopen
  | refused hduty _ => exact absurd hduty (hnone _ _)
  | uncaptured hduty _ => exact absurd hduty (hnone _ _)
  | launched hduty _ => exact absurd hduty (hnone _ _)
  | unequipped hduty _ => exact absurd hduty (hnone _ _)
  | equipped hduty _ => exact absurd hduty (hnone _ _)
  | discarded hduty _ => exact absurd hduty (hnone _ _)
  | scrapped hduty _ => exact absurd hduty (hnone _ _)
  | taken _ hhandle _ _ =>
    rw [hs.empty] at hhandle
    cases hhandle
  | reaped hduty hshift => exact hs.of_shift ht rfl (by simp [hduty]) hshift
  | requested hopen _ _ =>
    rw [hs.requested] at hopen
    cases hopen
  | announced _ hduty hshift => exact hs.of_shift ht rfl (by simp [hduty]) hshift
  | notified hduty hshift => exact hs.of_shift ht rfl (by simp [hduty]) hshift
  | counted _ => exact ⟨ht, hs.empty, rfl⟩
  | left _ _ => exact ⟨ht, hs.empty, rfl⟩
  | marked _ _ => exact ⟨ht, hs.empty, rfl⟩
  | cleared _ hhandle _ _ _ =>
    rw [hs.empty] at hhandle
    cases hhandle

/-- What is reached from a released supervisor is released. -/
theorem Released.reaches (hs : s.Released) (hreachable : s.Reachable) (hreach : Reaches s t) :
    t.Released := by
  induction hreach with
  | refl => exact hs
  | step label hprefix hstep ih =>
    exact ih.move (hreachable.trans hprefix).locked (move_of_step hstep)

/-- A warden that has ended has released the supervisor. -/
theorem Reachable.released (hs : s.Reachable) (hwarden : s.warden = .finished) : s.Released where
  toSealed := hs.shutdown.left (by rw [hwarden]; rfl)
  empty := hs.shutdown.cleared (by rw [hwarden]; rfl)
  idle := by rw [duty?, dutyAmong?, hwarden]; rfl

/-- Under a released supervisor a child that is not reaped is in the hands of a caller that has
stopped it. -/
theorem Released.reaping_of_isLive (hs : s.Released) (hreachable : s.Reachable) {g : Generation}
    (hlive : s.isLive g = true) : ∃ id, s.callers.get? id = some (.reaping g) := by
  obtain ⟨k, hk⟩ := (hreachable.custody.kept g).mp hlive
  have hnone := fun h ↦ hs.toSealed.duty?_ne (h := h) hreachable.locked
  cases k with
  | slot =>
    rw [kept?, hs.empty] at hk
    cases hk
  | thread h =>
    cases h with
    | warden =>
      rw [kept?, hs.idle] at hk
      cases hk
    | caller id =>
      obtain ⟨duty, hduty, hchild⟩ := Option.bind_eq_some_iff.mp hk
      refine ⟨id, ?_⟩
      cases duty with
      | start start => exact absurd hduty (hnone _ start)
      | announce => cases hchild
      | notify => cases hchild
      | reap g' =>
        obtain rfl : g' = g := Option.some.inj hchild
        exact caller_of_reap hduty

end

end Sidecar.Supervisor
