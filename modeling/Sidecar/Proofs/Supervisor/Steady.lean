import Sidecar.Proofs.Supervisor.Positions
import Sidecar.Proofs.Supervisor.Run

/-!
# Supervisors that only exchange

While all callers exchange frames and the streams of the child in the slot are decoded, nothing
happens to the slot: the child stays there with its input open, and the warden watches it
(`Steady.step`).
-/

namespace Sidecar.Supervisor

/-- Whether a caller makes an exchange, or has made one. -/
def Caller.isExchanging : Caller → Bool
  | .sending _ => true
  | .entering _ _ => true
  | .writing _ _ => true
  | .awaiting _ => true
  | .collecting _ _ => true
  | .done _ => true
  | _ => false

/-- A child is in the slot with its input open, and the warden has nothing to do. -/
structure Steady (s : Supervisor) (g : Generation) (c : Child) : Prop where
  lock : s.lock = none
  handle : s.handle = some g
  closeNotice : s.closeNotice = false
  warden : s.warden = .looking ∨ s.warden = .watching g
  hasInput : c.hasInput = true
  exitNotice : c.exitNotice = false

/-- A step that leaves the slot, the warden and a child's input alone, and reports nothing. -/
private structure Untroubled (s t : Supervisor) (g : Generation) : Prop where
  lock : t.lock = s.lock
  handle : t.handle = s.handle
  closeNotice : t.closeNotice = s.closeNotice
  warden : t.warden = s.warden
  child : ∀ c c', s.children.get? g = some c → t.children.get? g = some c' →
    c'.hasInput = c.hasInput ∧ c'.exitNotice = c.exitNotice

section

variable {s t : Supervisor} {g : Generation} {c c' : Child} {label : Label} {id : CallerId}

private theorem untroubled_of_callers {callers : Table CallerId Caller}
    {cells : Table CellId KillCell} : Untroubled s { s with callers, cells } g := by
  refine ⟨rfl, rfl, rfl, rfl, fun c c' hchild hchild' ↦ ?_⟩
  obtain rfl := Option.some.inj (hchild.symm.trans hchild')
  exact ⟨rfl, rfl⟩

private theorem untroubled_of_modify {callers : Table CallerId Caller} {g' : Generation}
    {f : Child → Child} (hf : ∀ c, (f c).hasInput = c.hasInput ∧ (f c).exitNotice = c.exitNotice) :
    Untroubled s { s with callers, children := s.children.modify g' f } g := by
  refine ⟨rfl, rfl, rfl, rfl, fun c c' hchild hchild' ↦ ?_⟩
  rw [Table.get?_modify] at hchild'
  split at hchild'
  · next heq =>
    rw [heq, hchild] at hchild'
    obtain rfl := Option.some.inj hchild'
    exact hf c
  · obtain rfl := Option.some.inj (hchild.symm.trans hchild')
    exact ⟨rfl, rfl⟩

private theorem setOutlet_untroubled (stream : Stream) (o : Outlet) (c : Child) :
    (c.setOutlet stream o).hasInput = c.hasInput ∧
      (c.setOutlet stream o).exitNotice = c.exitNotice := by
  cases stream <;> exact ⟨rfl, rfl⟩

/-- A caller that exchanges and goes on leaves the slot alone. -/
private theorem untroubled_of_proceedCaller {post : Caller} (hpost : post.isExchanging)
    (h : s.proceedCaller id post = some t) : Untroubled s t g := by
  cases post with
  | sending frame =>
    simp only [proceedCaller] at h
    repeat' split at h
    all_goals
      cases h
      try exact untroubled_of_callers
  | entering g' frame =>
    simp only [proceedCaller] at h
    repeat' split at h
    all_goals cases h
    · exact untroubled_of_modify fun _ ↦ ⟨rfl, rfl⟩
    · exact untroubled_of_callers
  | writing => cases h
  | awaiting => cases h
  | collecting => cases h
  | done => cases h
  | _ => cases hpost

private theorem untroubled_of_endWriting {result : Except IoFault Unit} {post : Caller}
    (h : s.endWriting id result post = some t) : Untroubled s t g := by
  unfold endWriting at h
  repeat' split at h
  all_goals cases h
  · exact untroubled_of_modify fun _ ↦ ⟨rfl, rfl⟩
  · exact untroubled_of_modify fun _ ↦ ⟨rfl, rfl⟩

private theorem untroubled_of_receiveToken {stream : Stream} {post : Caller}
    (h : s.receiveToken id stream post = some t) : Untroubled s t g := by
  unfold receiveToken at h
  repeat' split at h
  all_goals cases h
  all_goals first
    | exact untroubled_of_callers
    | exact untroubled_of_modify (setOutlet_untroubled _ _)

private theorem untroubled_of_stepOutlet {g' : Generation} {stream : Stream}
    {f : Outlet → Option Outlet} (h : s.stepOutlet g' stream f = some t) : Untroubled s t g := by
  unfold stepOutlet at h
  split at h
  · cases h
  · obtain ⟨o, -, rfl⟩ := Option.map_eq_some_iff.mp h
    exact untroubled_of_modify (setOutlet_untroubled _ _)

/-- Another child's stream can be reported, but not one that is decoded. -/
private theorem untroubled_of_stepReport {g' : Generation} {stream : Stream}
    (hchild : s.children.get? g = some c) (hdecoding : ∀ stream, (c.outlet stream).phase = .decoding)
    (h : s.stepReport g' stream = some t) : Untroubled s t g := by
  unfold stepReport at h
  split at h
  · cases h
  · next c₀ hchild₀ =>
    simp only at h
    split at h
    · next hphase =>
      cases h
      have hne : g' ≠ g := by
        rintro rfl
        obtain rfl := Option.some.inj (hchild.symm.trans hchild₀)
        cases hphase.symm.trans (hdecoding stream)
      refine ⟨rfl, rfl, rfl, rfl, fun c₁ c₂ hchild₁ hchild₂ ↦ ?_⟩
      rw [modifyChild, Table.get?_modify, if_neg hne] at hchild₂
      obtain rfl := Option.some.inj (hchild₁.symm.trans hchild₂)
      exact ⟨rfl, rfl⟩
    · cases h

private theorem not_starting (h : Steady s g c)
    (hcallers : ∀ id post, s.callers.get? id = some post → post.isExchanging) (holder : Holder) :
    s.startOf? holder = none := by
  cases holder with
  | caller id =>
    simp only [startOf?]
    split
    · next hpost => cases hcallers id _ hpost
    · rfl
  | warden =>
    simp only [startOf?]
    rcases h.warden with hwarden | hwarden <;> rw [hwarden]

private theorem Steady.of_untroubled (h : Steady s g c) (hchild : s.children.get? g = some c)
    (hchild' : t.children.get? g = some c') (huntroubled : Untroubled s t g) : Steady t g c' := by
  obtain ⟨hinput, hnotice⟩ := huntroubled.child c c' hchild hchild'
  exact ⟨huntroubled.lock.trans h.lock, huntroubled.handle.trans h.handle,
    huntroubled.closeNotice.trans h.closeNotice, huntroubled.warden.symm ▸ h.warden,
    hinput.trans h.hasInput, hnotice.trans h.exitNotice⟩

/-- The warden finds the child in the slot and watches it. -/
private theorem Steady.watch (h : Steady s g c) (hchild : s.children.get? g = some c)
    (hstep : s.proceedWarden = some t) (hchild' : t.children.get? g = some c') : Steady t g c' := by
  rcases h.warden with hwarden | hwarden
  · simp only [proceedWarden, hwarden, h.lock, h.handle, Option.isSome_none, Bool.false_eq_true,
      if_false, Option.some.injEq] at hstep
    subst hstep
    obtain rfl := Option.some.inj (hchild.symm.trans hchild')
    exact ⟨rfl, rfl, h.closeNotice, .inr rfl, h.hasInput, h.exitNotice⟩
  · simp only [proceedWarden, hwarden] at hstep
    cases hstep

/-- While all callers exchange and the child's streams are decoded, every step keeps the child in
the slot. -/
theorem Steady.step (h : Steady s g c) (hchild : s.children.get? g = some c)
    (hdecoding : ∀ stream, (c.outlet stream).phase = .decoding)
    (hcallers : ∀ id post, s.callers.get? id = some post → post.isExchanging)
    (hstep : s.step label = some t) (hchild' : t.children.get? g = some c') : Steady t g c' := by
  cases label with
  | call id call =>
    simp only [Supervisor.step] at hstep
    split at hstep
    · cases hstep
      exact h.of_untroubled hchild hchild' untroubled_of_callers
    · cases hstep
  | proceed id =>
    obtain ⟨post, hpost, hproceed⟩ := Option.bind_eq_some_iff.mp hstep
    exact h.of_untroubled hchild hchild'
      (untroubled_of_proceedCaller (hcallers id post hpost) hproceed)
  | launch holder outcome => simp [Supervisor.step, stepLaunch, not_starting h hcallers] at hstep
  | equip holder outcome => simp [Supervisor.step, stepEquip, not_starting h hcallers] at hstep
  | written id =>
    obtain ⟨post, -, hend⟩ := Option.bind_eq_some_iff.mp hstep
    exact h.of_untroubled hchild hchild' (untroubled_of_endWriting hend)
  | unwritten id cause =>
    obtain ⟨post, -, hend⟩ := Option.bind_eq_some_iff.mp hstep
    exact h.of_untroubled hchild hchild' (untroubled_of_endWriting hend)
  | receive id stream =>
    obtain ⟨post, -, hreceive⟩ := Option.bind_eq_some_iff.mp hstep
    exact h.of_untroubled hchild hchild' (untroubled_of_receiveToken hreceive)
  | windowOver id =>
    simp only [Supervisor.step] at hstep
    repeat' split at hstep
    all_goals cases hstep
    exact h.of_untroubled hchild hchild' untroubled_of_callers
  | waitOver id timeout =>
    simp only [Supervisor.step] at hstep
    split at hstep
    · next hpost => cases hcallers id _ hpost
    · cases hstep
  | leave id =>
    simp only [Supervisor.step] at hstep
    split at hstep
    · cases hstep
      exact h.of_untroubled hchild hchild' untroubled_of_callers
    · cases hstep
  | handle cell =>
    simp only [Supervisor.step] at hstep
    repeat' split at hstep
    all_goals cases hstep
    exact h.of_untroubled hchild hchild' untroubled_of_callers
  | warden => exact h.watch hchild hstep hchild'
  | exitNoticed =>
    simp only [Supervisor.step, noticeExit] at hstep
    have hshows : c.showsExit = false := by
      have hout : c.out.phase = .decoding := hdecoding .out
      simp [Child.showsExit, h.exitNotice, hout]
    rcases h.warden with hwarden | hwarden <;> simp [hwarden, hchild, hshows] at hstep
  | closeNoticed =>
    simp only [Supervisor.step, noticeClose] at hstep
    rcases h.warden with hwarden | hwarden <;> simp [hwarden, h.closeNotice] at hstep
  | restOver =>
    rcases h.warden with hwarden | hwarden <;> simp [Supervisor.step, hwarden] at hstep
  | discard stream =>
    rcases h.warden with hwarden | hwarden <;>
      simp [Supervisor.step, discardToken, hwarden] at hstep
  | drained =>
    rcases h.warden with hwarden | hwarden <;> simp [Supervisor.step, hwarden] at hstep
  | graceOver =>
    rcases h.warden with hwarden | hwarden <;> simp [Supervisor.step, hwarden] at hstep
  | emit g' stream bytes =>
    simp only [Supervisor.step] at hstep
    exact h.of_untroubled hchild hchild' (untroubled_of_stepOutlet hstep)
  | endStream g' stream =>
    simp only [Supervisor.step] at hstep
    exact h.of_untroubled hchild hchild' (untroubled_of_stepOutlet hstep)
  | disconnect g' stream =>
    simp only [Supervisor.step] at hstep
    exact h.of_untroubled hchild hchild' (untroubled_of_stepOutlet hstep)
  | report g' stream =>
    exact h.of_untroubled hchild hchild' (untroubled_of_stepReport hchild hdecoding hstep)
  | exit g' =>
    simp only [Supervisor.step] at hstep
    repeat' split at hstep
    all_goals cases hstep
    exact h.of_untroubled hchild hchild' (untroubled_of_modify fun _ ↦ ⟨rfl, rfl⟩)

/-- A supervisor with its first child is steady. -/
theorem steady_created (config : Config) : Steady (created config) 1 (.fresh config false) :=
  ⟨rfl, rfl, rfl, .inl rfl, rfl, rfl⟩

end

end Sidecar.Supervisor
