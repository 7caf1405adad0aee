import Sidecar.Proofs.Supervisor.Run

/-!
# The lock of the slot

A thread takes its duties one after the other (`becomes_of_move`). The slot is locked by the thread
that is starting a child, and is empty meanwhile (`Locked`).
-/

namespace Sidecar.Supervisor

/-- What the duty of a thread becomes in one step. -/
inductive Becomes (s : Supervisor) : Option Duty → Option Duty → Prop where
  | same {duty : Option Duty} : Becomes s duty duty
  | locked : Becomes s none (some (.start .launching))
  | refused : Becomes s (some (.start .launching)) none
  | uncaptured : Becomes s (some (.start .launching)) (some (.start .discarding))
  | launched :
      Becomes s (some (.start .launching)) (some (.start (.equipping (s.generation + 1))))
  | unequipped {g : Generation} {cause : IoFault} :
      Becomes s (some (.start (.equipping g))) (some (.start (.scrapping g cause)))
  | equipped {g : Generation} : Becomes s (some (.start (.equipping g))) none
  | discarded : Becomes s (some (.start .discarding)) none
  | scrapped {g : Generation} {cause : IoFault} :
      Becomes s (some (.start (.scrapping g cause))) none
  | taken {g : Generation} : Becomes s none (some (.reap g))
  | reaped {g : Generation} : Becomes s (some (.reap g)) none
  | requested : Becomes s none (some .announce)
  | announced : Becomes s (some .announce) (some .notify)
  | notified : Becomes s (some .notify) none

/-- The slot is locked by whoever is starting a child, and is empty meanwhile. -/
structure Locked (s : Supervisor) : Prop where
  holder : ∀ h, s.lock = some h ↔ ∃ start, s.duty? h = some (.start start)
  empty : s.lock.isSome → s.handle = none

section

variable {s t : Supervisor} {label : Label} {h : Holder} {duty : Option Duty}

/-! ## Duties one after the other -/

private theorem becomes_of_duties {h' : Holder} {before : Option Duty} (hduty : s.duty? h = before)
    (hduties : ∀ h', t.duty? h' = if h' = h then duty else s.duty? h')
    (hbecomes : Becomes s before duty) : Becomes s (s.duty? h') (t.duty? h') := by
  rw [hduties]
  split
  · next heq =>
    rw [heq, hduty]
    exact hbecomes
  · exact .same

private theorem becomes_of_eq (heq : t.duty? h = s.duty? h) :
    Becomes s (s.duty? h) (t.duty? h) := by
  rw [heq]
  exact .same

/-- What a move makes of the duty of a thread. -/
theorem becomes_of_move (hmove : Move s label t) (h : Holder) :
    Becomes s (s.duty? h) (t.duty? h) := by
  cases hmove with
  | talk hduties _ _ => exact becomes_of_eq (hduties h)
  | patrol hduty _ _ _ => exact becomes_of_eq (duties_goTo s _ hduty h)
  | locked _ _ _ hduty hshift => exact becomes_of_duties hduty hshift.duties .locked
  | refused hduty hshift => exact becomes_of_duties hduty hshift.duties .refused
  | uncaptured hduty hshift => exact becomes_of_duties hduty hshift.duties .uncaptured
  | launched hduty hshift => exact becomes_of_duties hduty hshift.duties .launched
  | unequipped hduty hshift => exact becomes_of_duties hduty hshift.duties .unequipped
  | equipped hduty hshift => exact becomes_of_duties hduty hshift.duties .equipped
  | discarded hduty hshift => exact becomes_of_duties hduty hshift.duties .discarded
  | scrapped hduty hshift => exact becomes_of_duties hduty hshift.duties .scrapped
  | taken _ _ hduty hshift => exact becomes_of_duties hduty hshift.duties .taken
  | reaped hduty hshift => exact becomes_of_duties hduty hshift.duties .reaped
  | requested _ hduty hshift => exact becomes_of_duties hduty hshift.duties .requested
  | announced _ hduty hshift => exact becomes_of_duties hduty hshift.duties .announced
  | notified hduty hshift => exact becomes_of_duties hduty hshift.duties .notified
  | counted hwarden => exact becomes_of_eq (duties_goTo s .looking (by rw [hwarden]; rfl) h)
  | left _ hduty => exact becomes_of_eq (duties_goTo s .closing hduty.symm h)
  | marked _ hwarden =>
    exact becomes_of_eq (duties_goTo s (.starting .requested) (by rw [hwarden]; rfl) h)
  | cleared _ _ hwarden hduty _ =>
    have hbefore : s.duty? .warden = none := by rw [duty?, dutyAmong?, hwarden]; rfl
    exact becomes_of_duties hbefore (duties_warden s.callers s.warden _)
      (by rw [hduty]; exact .taken)

/-! ## The lock -/

private theorem Locked.of_same (hs : s.Locked) (hlock : t.lock = s.lock)
    (hhandle : t.handle = s.handle) (hduty : ∀ h, t.duty? h = s.duty? h) : t.Locked := by
  refine ⟨fun h ↦ ?_, fun h ↦ ?_⟩
  · rw [hlock, hduty]
    exact hs.holder h
  · rw [hhandle]
    exact hs.empty (hlock ▸ h)

private theorem Locked.of_duties (hs : s.Locked)
    (hduties : ∀ h', t.duty? h' = if h' = h then duty else s.duty? h')
    (hown : t.lock = some h ↔ ∃ start, duty = some (.start start))
    (hothers : ∀ h', h' ≠ h → (t.lock = some h' ↔ s.lock = some h'))
    (hempty : t.lock.isSome → t.handle = none) : t.Locked := by
  refine ⟨fun h' ↦ ?_, hempty⟩
  by_cases hh : h' = h
  · rw [hduties, if_pos hh, hh]
    exact hown
  · rw [hduties, if_neg hh, hothers h' hh]
    exact hs.holder h'

/-- The thread that is starting a child has locked the slot. -/
theorem Locked.lock_eq (hs : s.Locked) {start : Start} (hduty : s.duty? h = some (.start start)) :
    s.lock = some h :=
  (hs.holder h).mpr ⟨start, hduty⟩

/-- The slot is not locked by a thread that is not starting a child. -/
theorem Locked.lock_ne (hs : s.Locked) (hduty : ∀ start, s.duty? h ≠ some (.start start)) :
    s.lock ≠ some h := by
  intro hlock
  obtain ⟨start, hstart⟩ := (hs.holder h).mp hlock
  exact hduty start hstart

private theorem Locked.of_within (hs : s.Locked) {before after : Start}
    (hduty : s.duty? h = some (.start before))
    (hduties : ∀ h', t.duty? h' = if h' = h then some (.start after) else s.duty? h')
    (hlock : t.lock = s.lock) (hhandle : t.handle = s.handle) : t.Locked := by
  have hown := hs.lock_eq hduty
  refine hs.of_duties hduties ?_ (fun h' _ ↦ by rw [hlock]) (fun hsome ↦ ?_)
  · rw [hlock, hown]
    exact ⟨fun _ ↦ ⟨after, rfl⟩, fun _ ↦ rfl⟩
  · rw [hhandle]
    exact hs.empty (hlock ▸ hsome)

private theorem Locked.of_unlock (hs : s.Locked) {before : Start}
    (hduty : s.duty? h = some (.start before))
    (hduties : ∀ h', t.duty? h' = if h' = h then none else s.duty? h')
    (hlock : t.lock = none) : t.Locked := by
  have hown := hs.lock_eq hduty
  refine hs.of_duties hduties ?_ (fun h' hne ↦ ?_) (fun hsome ↦ ?_)
  · rw [hlock]
    simp
  · rw [hlock, hown]
    simp only [reduceCtorEq, Option.some.injEq, false_iff]
    exact Ne.symm hne
  · rw [hlock] at hsome
    cases hsome

private theorem Locked.of_aside (hs : s.Locked) (hbefore : ∀ start, s.duty? h ≠ some (.start start))
    (hafter : ∀ start, duty ≠ some (.start start))
    (hduties : ∀ h', t.duty? h' = if h' = h then duty else s.duty? h')
    (hlock : t.lock = s.lock) (hhandle : s.handle = none → t.handle = none) : t.Locked := by
  refine hs.of_duties hduties ?_ (fun h' _ ↦ by rw [hlock]) (fun hsome ↦ ?_)
  · rw [hlock]
    exact iff_of_false (hs.lock_ne hbefore) (not_exists.mpr hafter)
  · exact hhandle (hs.empty (hlock ▸ hsome))

/-- A move keeps the lock with whoever is starting a child. -/
theorem Locked.move (hs : s.Locked) (hmove : Move s label t) : t.Locked := by
  cases hmove with
  | talk hduty _ _ => exact hs.of_same rfl rfl hduty
  | patrol hduty _ _ _ => exact hs.of_same rfl rfl (duties_goTo s _ hduty)
  | @locked h _ _ hlock hopen hempty hduty hshift =>
    refine hs.of_duties hshift.duties ?_ (fun h' hne ↦ ?_) (fun _ ↦ hempty)
    · exact ⟨fun _ ↦ ⟨_, rfl⟩, fun _ ↦ rfl⟩
    · rw [hlock]
      simp only [Option.some.injEq, reduceCtorEq, iff_false]
      exact Ne.symm hne
  | refused hduty hshift => exact hs.of_unlock hduty hshift.duties rfl
  | uncaptured hduty hshift => exact hs.of_within hduty hshift.duties rfl rfl
  | launched hduty hshift => exact hs.of_within hduty hshift.duties rfl rfl
  | unequipped hduty hshift => exact hs.of_within hduty hshift.duties rfl rfl
  | equipped hduty hshift => exact hs.of_unlock hduty hshift.duties rfl
  | discarded hduty hshift => exact hs.of_unlock hduty hshift.duties rfl
  | scrapped hduty hshift => exact hs.of_unlock hduty hshift.duties rfl
  | taken _ _ hduty hshift =>
    exact hs.of_aside (by simp [hduty]) (by simp) hshift.duties rfl (fun _ ↦ rfl)
  | reaped hduty hshift => exact hs.of_aside (by simp [hduty]) (by simp) hshift.duties rfl id
  | requested _ hduty hshift => exact hs.of_aside (by simp [hduty]) (by simp) hshift.duties rfl id
  | announced _ hduty hshift => exact hs.of_aside (by simp [hduty]) (by simp) hshift.duties rfl id
  | notified hduty hshift => exact hs.of_aside (by simp [hduty]) (by simp) hshift.duties rfl id
  | counted hwarden => exact hs.of_same rfl rfl (duties_goTo s .looking (by rw [hwarden]; rfl))
  | left _ hduty => exact hs.of_same rfl rfl (duties_goTo s .closing hduty.symm)
  | marked _ hwarden =>
    exact hs.of_same rfl rfl (duties_goTo s (.starting .requested) (by rw [hwarden]; rfl))
  | cleared _ _ hwarden hduty _ =>
    have hcleared : s.duty? .warden = none := by rw [duty?, dutyAmong?, hwarden]; rfl
    exact hs.of_aside (by simp [hcleared]) (by simp [hduty])
      (duties_warden s.callers s.warden _) rfl (fun _ ↦ rfl)

/-- Nobody has a duty in the beginning. -/
theorem duty?_created (config : Config) (h : Holder) : (created config).duty? h = none := by
  cases h <;> rfl

private theorem locked_created (config : Config) : (created config).Locked := by
  refine ⟨fun h ↦ ?_, fun hlock ↦ by cases hlock⟩
  rw [duty?_created]
  simp [created]

/-- The lock is with whoever is starting a child. -/
theorem Reachable.locked (hs : s.Reachable) : s.Locked :=
  hs.induction locked_created fun _ _ _ _ hlocked hmove ↦ hlocked.move hmove

end

end Sidecar.Supervisor
