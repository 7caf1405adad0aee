import Sidecar.Proofs.Supervisor.Custody

/-!
# The latest child

The slot holds the latest child, and so do the hands of whoever is starting one (`Latest`): a start
needs the slot empty and keeps it locked, so no other child is spawned meanwhile. An earlier child
that is alive was taken out of the slot, and the thread that took it has yet to reap it
(`Reachable.reaping_of_isLive`).
-/

namespace Sidecar.Supervisor

/-- The slot holds the latest child, and so does whoever is starting one. -/
structure Latest (s : Supervisor) : Prop where
  slot : ∀ g, s.handle = some g → g = s.generation
  starting : ∀ h start g, s.duty? h = some (.start start) →
    (Duty.start start).child? = some g → g = s.generation

section

variable {s t : Supervisor} {label : Label} {h : Holder} {duty : Option Duty} {g : Generation}

private theorem Latest.of_same (hs : s.Latest) (hhandle : t.handle = s.handle)
    (hduties : ∀ h, t.duty? h = s.duty? h) (hgeneration : t.generation = s.generation) :
    t.Latest := by
  refine ⟨fun g hslot ↦ ?_, fun h start g hduty hchild ↦ ?_⟩
  · rw [hgeneration]
    exact hs.slot g (hhandle ▸ hslot)
  · rw [hgeneration]
    exact hs.starting h start g (hduties h ▸ hduty) hchild

private theorem Latest.of_duties (hs : s.Latest)
    (hduties : ∀ h', t.duty? h' = if h' = h then duty else s.duty? h')
    (hduty : ∀ start g, duty = some (.start start) → (Duty.start start).child? = some g →
      g = s.generation)
    (hhandle : ∀ g, t.handle = some g → g = s.generation)
    (hgeneration : t.generation = s.generation) : t.Latest := by
  refine ⟨fun g hslot ↦ ?_, fun h' start g hstart hchild ↦ ?_⟩
  · rw [hgeneration]
    exact hhandle g hslot
  · rw [hgeneration]
    rw [hduties] at hstart
    split at hstart
    · exact hduty start g hstart hchild
    · exact hs.starting h' start g hstart hchild

/-- A thread whose start has no child yet, or that does something else, has no child to start. -/
private theorem Latest.of_childless (hs : s.Latest)
    (hduties : ∀ h', t.duty? h' = if h' = h then duty else s.duty? h')
    (hchildless : ∀ start, duty = some (.start start) → (Duty.start start).child? = none)
    (hhandle : ∀ g, t.handle = some g → g = s.generation)
    (hgeneration : t.generation = s.generation) : t.Latest := by
  refine hs.of_duties hduties (fun start g hstart hchild ↦ ?_) hhandle hgeneration
  rw [hchildless start hstart] at hchild
  cases hchild

/-- A move keeps the latest child in the slot and with whoever is starting it. -/
theorem Latest.move (hs : s.Latest) (hlocked : s.Locked) (hmove : Move s label t) : t.Latest := by
  cases hmove with
  | talk hduty _ _ => exact hs.of_same rfl hduty rfl
  | patrol hduty _ _ _ => exact hs.of_same rfl (duties_goTo s _ hduty) rfl
  | locked _ _ _ _ hshift =>
    refine hs.of_childless hshift.duties (fun start hstart ↦ ?_) hs.slot rfl
    cases hstart
    rfl
  | refused _ hshift => exact hs.of_childless hshift.duties (by rintro _ ⟨⟩) hs.slot rfl
  | uncaptured _ hshift =>
    refine hs.of_childless hshift.duties (fun start hstart ↦ ?_) hs.slot rfl
    cases hstart
    rfl
  | @launched h callers warden hduty hshift =>
    -- Nobody else is starting a child, and the slot is empty.
    have hlock := hlocked.lock_eq hduty
    have hempty : s.handle = none := hlocked.empty (by rw [hlock]; rfl)
    refine ⟨fun g hslot ↦ ?_, fun h' start g hstart hchild ↦ ?_⟩
    · rw [hempty] at hslot
      cases hslot
    · have hstart' := (hshift.duties h').symm.trans hstart
      split at hstart'
      · cases hstart'
        cases hchild
        rfl
      · next hne =>
        have hlock' := hlocked.lock_eq hstart'
        rw [hlock] at hlock'
        exact absurd (Option.some.inj hlock').symm hne
  | @unequipped h g cause _ _ hduty hshift =>
    refine hs.of_duties hshift.duties (fun start g' hstart hchild ↦ ?_) hs.slot rfl
    cases hstart
    cases hchild
    exact hs.starting h (.equipping g) g hduty rfl
  | @equipped h g _ _ hduty hshift =>
    refine hs.of_childless hshift.duties (by rintro _ ⟨⟩) (fun g' hslot ↦ ?_) rfl
    cases hslot
    exact hs.starting h (.equipping g) g hduty rfl
  | discarded _ hshift => exact hs.of_childless hshift.duties (by rintro _ ⟨⟩) hs.slot rfl
  | scrapped _ hshift => exact hs.of_childless hshift.duties (by rintro _ ⟨⟩) hs.slot rfl
  | taken _ _ _ hshift => exact hs.of_childless hshift.duties (by rintro _ ⟨⟩) (by rintro _ ⟨⟩) rfl
  | reaped _ hshift => exact hs.of_childless hshift.duties (by rintro _ ⟨⟩) hs.slot rfl
  | requested _ _ hshift => exact hs.of_childless hshift.duties (by rintro _ ⟨⟩) hs.slot rfl
  | announced _ _ hshift => exact hs.of_childless hshift.duties (by rintro _ ⟨⟩) hs.slot rfl
  | notified _ hshift => exact hs.of_childless hshift.duties (by rintro _ ⟨⟩) hs.slot rfl
  | counted hwarden => exact hs.of_same rfl (duties_goTo s .looking (by rw [hwarden]; rfl)) rfl
  | left _ hduty => exact hs.of_same rfl (duties_goTo s .closing hduty.symm) rfl
  | marked _ hwarden =>
    exact hs.of_same rfl (duties_goTo s (.starting .requested) (by rw [hwarden]; rfl)) rfl
  | cleared _ _ _ hduty _ =>
    refine hs.of_childless (duties_warden s.callers s.warden _) (fun start hstart ↦ ?_)
      (by rintro _ ⟨⟩) rfl
    rw [hduty] at hstart
    cases hstart

private theorem latest_created (config : Config) : (created config).Latest := by
  refine ⟨fun g hslot ↦ (Option.some.inj hslot).symm, fun h start g hduty _ ↦ ?_⟩
  rw [duty?_created] at hduty
  cases hduty

/-- The slot holds the latest child, and so does whoever is starting one. -/
theorem Reachable.latest (hs : s.Reachable) : s.Latest :=
  hs.induction latest_created fun _ _ _ hreachable hlatest hmove ↦
    hlatest.move hreachable.locked hmove

/-- A child that is alive is the latest one, or a thread took it out of the slot and has yet to reap
it. -/
theorem Reachable.reaping_of_isLive (hs : s.Reachable) (hlive : s.isLive g = true) :
    g = s.generation ∨ ∃ h, s.duty? h = some (.reap g) := by
  obtain ⟨k, hkept⟩ := (hs.custody.kept g).mp hlive
  cases k with
  | slot => exact .inl (hs.latest.slot g hkept)
  | thread h =>
    obtain ⟨duty, hduty, hchild⟩ := Option.bind_eq_some_iff.mp hkept
    cases duty with
    | start start => exact .inl (hs.latest.starting h start g hduty hchild)
    | reap g' =>
      cases hchild
      exact .inr ⟨h, hduty⟩
    | announce => cases hchild
    | notify => cases hchild

end

end Sidecar.Supervisor
