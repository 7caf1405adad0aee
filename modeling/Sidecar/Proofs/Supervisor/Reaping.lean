import Sidecar.Proofs.Supervisor.Custody
import Sidecar.Proofs.Supervisor.Positions
import Sidecar.Proofs.Supervisor.Watch

/-!
# Children that were taken out are reaped

A thread that has taken a child out of the slot has to reap it. Nobody else does it or keeps the
thread from it (`reap_of_other`), the thread can always go on (`exists_own_of_reap`), and after
three steps of its own at most the child is reaped (`reaped_of_run`).
-/

namespace Sidecar.Supervisor

/-- Whether it is the thread's own label. -/
def Holder.owns : Holder → Label → Bool
  | .caller id, label => label.caller? = some id
  | .warden, label => label.isWardens

/-- How many steps the warden needs at most to reap the child that it has taken out. -/
def Warden.stepsToReap : Warden → Nat
  | .dismissing _ => 3
  | .lingering _ => 2
  | _ => 1

/-- How many steps a thread needs at most to reap the child that it has taken out. -/
def stepsToReap (s : Supervisor) : Holder → Nat
  | .caller _ => 1
  | .warden => s.warden.stepsToReap

section

variable {s t : Supervisor} {label : Label} {labels : List Label} {h : Holder} {g : Generation}
  {duty : Option Duty}

private theorem keeps_reap {h' : Holder}
    (hduties : ∀ j, t.duty? j = if j = h' then duty else s.duty? j)
    (hother : s.duty? h' ≠ some (.reap g)) (hduty : s.duty? h = some (.reap g)) :
    t.duty? h = some (.reap g) := by
  have hne : h ≠ h' := by
    rintro rfl
    exact hother hduty
  rw [hduties, if_neg hne, hduty]

/-- A thread with a child to reap still has it after a move, or the child is reaped. -/
theorem reap_of_move (hmove : Move s label t) (hduty : s.duty? h = some (.reap g)) :
    t.duty? h = some (.reap g) ∨ t.duty? h = none ∧ t.isLive g = false := by
  cases hmove with
  | talk hduties _ _ => exact .inl ((hduties h).trans hduty)
  | patrol hwarden _ _ _ => exact .inl ((duties_goTo s _ hwarden h).trans hduty)
  | locked _ _ _ hother hshift => exact .inl (keeps_reap hshift.duties (by simp [hother]) hduty)
  | refused hother hshift => exact .inl (keeps_reap hshift.duties (by simp [hother]) hduty)
  | uncaptured hother hshift => exact .inl (keeps_reap hshift.duties (by simp [hother]) hduty)
  | launched hother hshift => exact .inl (keeps_reap hshift.duties (by simp [hother]) hduty)
  | unequipped hother hshift => exact .inl (keeps_reap hshift.duties (by simp [hother]) hduty)
  | equipped hother hshift => exact .inl (keeps_reap hshift.duties (by simp [hother]) hduty)
  | discarded hother hshift => exact .inl (keeps_reap hshift.duties (by simp [hother]) hduty)
  | scrapped hother hshift => exact .inl (keeps_reap hshift.duties (by simp [hother]) hduty)
  | taken _ _ hother hshift => exact .inl (keeps_reap hshift.duties (by simp [hother]) hduty)
  | @reaped h' g' _ _ hreap hshift =>
    by_cases hsame : h = h'
    · subst hsame
      obtain rfl : g' = g := Duty.reap.inj (Option.some.inj (hreap.symm.trans hduty))
      exact .inr ⟨(hshift.duties h).trans (if_pos rfl), not_isLive_of_reap rfl⟩
    · exact .inl ((hshift.duties h).trans ((if_neg hsame).trans hduty))
  | requested _ hother hshift => exact .inl (keeps_reap hshift.duties (by simp [hother]) hduty)
  | announced _ hother hshift => exact .inl (keeps_reap hshift.duties (by simp [hother]) hduty)
  | notified hother hshift => exact .inl (keeps_reap hshift.duties (by simp [hother]) hduty)
  | counted hwarden => exact .inl ((duties_goTo s .looking (by rw [hwarden]; rfl) h).trans hduty)
  | left _ hwarden => exact .inl ((duties_goTo s .closing hwarden.symm h).trans hduty)
  | marked _ hwarden =>
    exact .inl ((duties_goTo s (.starting .requested) (by rw [hwarden]; rfl) h).trans hduty)
  | cleared _ _ hwarden _ _ =>
    have hother : s.duty? .warden = none := by rw [duty?, dutyAmong?, hwarden]; rfl
    exact .inl (keeps_reap (duties_warden s.callers s.warden _) (by simp [hother]) hduty)

/-- Labels of others leave a thread with its child to reap. -/
theorem reap_of_other (hstep : s.step label = some t) (hother : h.owns label = false)
    (hduty : s.duty? h = some (.reap g)) :
    t.duty? h = some (.reap g) ∧ t.stepsToReap h = s.stepsToReap h := by
  cases h with
  | caller id =>
    have hsame := get?_callers_of_step hstep (of_decide_eq_false hother)
    exact ⟨by rw [← hduty, duty?, duty?, dutyAmong?, dutyAmong?, hsame], rfl⟩
  | warden =>
    have hsame := (unwatched_of_step hstep hother).warden
    rw [duty?, dutyAmong?, stepsToReap, hsame]
    exact ⟨hduty, rfl⟩

/-- A warden with a child to reap just goes on, or the time it gives the child is over. -/
private theorem label_of_reap (hstep : s.step label = some t) (hown : label.isWardens = true)
    (hduty : s.duty? .warden = some (.reap g)) : label = .warden ∨ label = .graceOver := by
  have hwarden : s.warden.duty? = some (.reap g) := hduty
  cases way_of_step hstep hown with
  | noticedClose _ before _ =>
    obtain before | ⟨_, before⟩ := before <;> rw [before] at hwarden <;> cases hwarden
  | _ =>
    first
    | exact .inl rfl
    | exact .inr rfl
    | next before _ =>
      rw [before] at hwarden
      cases hwarden

/-- A step of its own brings a thread closer to reaping its child. -/
theorem reap_of_own (hstep : s.step label = some t) (hown : h.owns label = true)
    (hduty : s.duty? h = some (.reap g)) :
    t.isLive g = false ∨
      t.duty? h = some (.reap g) ∧ t.stepsToReap h < s.stepsToReap h := by
  cases h with
  | caller id =>
    have hpost := caller_of_reap hduty
    cases own_of_step hstep (of_decide_eq_true hown) hpost with
    | proceed =>
      rw [step, hpost] at hstep
      cases hstep
      exact .inl (not_isLive_of_reap rfl)
  | warden =>
    have hlabel := label_of_reap hstep hown hduty
    rcases warden_of_reap hduty with hpost | hpost | hpost | hpost <;>
      obtain rfl | rfl := hlabel <;>
      simp only [step, proceedWarden, hpost, reduceCtorEq] at hstep
    · cases hstep
      exact .inl (not_isLive_of_reap rfl)
    · cases hstep
      exact .inr ⟨rfl, by rw [stepsToReap, stepsToReap, hpost]; exact Nat.lt_succ_self 2⟩
    · split at hstep
      · split at hstep
        · cases hstep
        · cases hstep
          exact .inl (not_isLive_of_reap rfl)
      · cases hstep
    · cases hstep
      exact .inr ⟨rfl, by rw [stepsToReap, stepsToReap, hpost]; exact Nat.lt_succ_self 1⟩
    · cases hstep
      exact .inl (not_isLive_of_reap rfl)

/-- A thread with a child to reap can go on. -/
theorem exists_own_of_reap (hduty : s.duty? h = some (.reap g)) :
    ∃ label t, h.owns label = true ∧ s.step label = some t := by
  cases h with
  | caller id =>
    refine ⟨.proceed id, (s.reap g).finish id .ok, by simp [Holder.owns, Label.caller?], ?_⟩
    rw [step, caller_of_reap hduty]
    rfl
  | warden =>
    rcases warden_of_reap hduty with hpost | hpost | hpost | hpost
    · exact ⟨.warden, _, rfl, by rw [step, proceedWarden, hpost]⟩
    · exact ⟨.warden, _, rfl, by rw [step, proceedWarden, hpost]⟩
    · exact ⟨.graceOver, _, rfl, by rw [step, hpost]⟩
    · exact ⟨.warden, _, rfl, by rw [step, proceedWarden, hpost]⟩

/-- After a run a child is reaped, or the thread that has to reap it has fewer steps left by those
that it has taken. -/
theorem reap_of_run (hs : s.Reachable) (hduty : s.duty? h = some (.reap g))
    (hrun : s.run labels = some t) :
    t.isLive g = false ∨
      t.duty? h = some (.reap g) ∧
        t.stepsToReap h + labels.countP h.owns ≤ s.stepsToReap h := by
  have hknown : g ≤ s.generation :=
    hs.custody.le_of_kept (k := .thread h) (by rw [kept?, hduty]; rfl)
  refine (run_induction (P := fun labels t ↦ g ≤ t.generation ∧ (t.isLive g = false ∨
    t.duty? h = some (.reap g) ∧ t.stepsToReap h + labels.countP h.owns ≤ s.stepsToReap h))
    ⟨hknown, .inr ⟨hduty, Nat.le_refl _⟩⟩ (fun labels label t u ht ih hstep ↦ ?_) hrun).2
  have hmove := move_of_step hstep
  obtain ⟨hle, hreap⟩ := ih
  refine ⟨hle.trans (generation_le_of_move hmove), ?_⟩
  obtain hdead | ⟨hkept, hsteps⟩ := hreap
  · exact .inl ((passing_of_move (hs.run ht).locked hmove).not_isLive hdead hle).1
  · rw [List.countP_append, List.countP_singleton]
    cases hown : h.owns label with
    | false =>
      obtain ⟨hkept', hsame⟩ := reap_of_other hstep hown hkept
      exact .inr ⟨hkept', by rw [hsame]; exact hsteps⟩
    | true =>
      obtain hdead | ⟨hkept', hless⟩ := reap_of_own hstep hown hkept
      · exact .inl hdead
      · exact .inr ⟨hkept', by rw [if_pos rfl]; omega⟩

/-- A thread that has to reap a child needs a step for it, and no more than three. -/
theorem stepsToReap_within (s : Supervisor) (h : Holder) :
    0 < s.stepsToReap h ∧ s.stepsToReap h ≤ 3 := by
  cases h with
  | caller id => exact ⟨Nat.one_pos, Nat.le_add_left 1 2⟩
  | warden => cases hpost : s.warden <;> simp [stepsToReap, Warden.stepsToReap, hpost]

/-- After three steps of the thread that has to reap a child the child is reaped. -/
theorem reaped_of_run (hs : s.Reachable) (hduty : s.duty? h = some (.reap g))
    (hrun : s.run labels = some t) (hsteps : 3 ≤ labels.countP h.owns) : t.isLive g = false := by
  obtain hdead | ⟨_, hleft⟩ := reap_of_run hs hduty hrun
  · exact hdead
  · have hbefore := (s.stepsToReap_within h).2
    have hafter := (t.stepsToReap_within h).1
    omega

end

end Sidecar.Supervisor
