import Sidecar.Proofs.Supervisor.Shutdown

/-!
# After shutdown

A request for shutdown has its effect when it returns: from then on no child is spawned. When the
warden has ended, which is what a caller waits for, every call comes to its end at once and every
child is reaped, unless a caller that stopped it has not come to that yet.
-/

namespace Sidecar.Supervisor

/-- A call that is made now comes to an outcome: whatever happens besides, until its caller leaves
it is where it began, and would come to the outcome by going on, or it has come to it. -/
def ComesTo (s : Supervisor) (call : Call) (outcome : Outcome) : Prop :=
  ∀ id t labels u, s.step (.call id call) = some t → .leave id ∉ labels → t.run labels = some u →
    u.callers.get? id = some (.done outcome) ∨
      u.callers.get? id = some call.begin ∧ u.step (.proceed id) = some (u.finish id outcome)

/-- Nothing is left to do but to reap what callers have stopped. -/
structure IsOver (s : Supervisor) : Prop where
  /-- No child is in the slot. -/
  empty : s.handle = none
  /-- Nobody gets a handle for killing a child. -/
  noHandle : ∀ cell, s.step (.handle cell) = none
  start : s.ComesTo .start (.failed .closed)
  exchange : ∀ frame, s.ComesTo (.exchange frame) (.failed .closed)
  stop : s.ComesTo .stop .ok
  /-- Every child is reaped, or in the hands of a caller that has stopped it. -/
  reaped : ∀ g, 0 < g → g ≤ s.generation → ∃ c, s.children.get? g = some c ∧
    (c.status = .reaped ∨ ∃ id, s.callers.get? id = some (.reaping g))
  /-- Every child that was given up before it had a generation is reaped. -/
  strays : ∀ status ∈ s.strays, status = .reaped

section

variable {s t : Supervisor} {id : CallerId} {label : Label} {call : Call} {outcome : Outcome}

/-! ## Calls after the end -/

private theorem proceed_start (hs : s.Released)
    (hpost : s.callers.get? id = some (.starting .requested)) :
    s.step (.proceed id) = some (s.finish id (.failed .closed)) := by
  simp [step, hpost, proceedCaller, hs.unlocked, beginStart, hs.requested, finishStart]

private theorem proceed_exchange (hs : s.Released) {frame : Bytes}
    (hpost : s.callers.get? id = some (.sending frame)) :
    s.step (.proceed id) = some (s.finish id (.failed .closed)) := by
  simp [step, hpost, proceedCaller, hs.unlocked, hs.empty]

private theorem proceed_stop (hs : s.Released) (hpost : s.callers.get? id = some .stopping) :
    s.step (.proceed id) = some (s.finish id .ok) := by
  simp [step, hpost, proceedCaller, hs.unlocked, hs.empty]

/-- A caller stands where its call begins, or its call has come to an outcome. -/
private def IsAt (id : CallerId) (call : Call) (outcome : Outcome) (s : Supervisor) : Prop :=
  s.callers.get? id = some (.done outcome) ∨ s.callers.get? id = some call.begin

private theorem isAt_of_step
    (hproceed : s.callers.get? id = some call.begin →
      s.step (.proceed id) = some (s.finish id outcome))
    (hown : ∀ label, Own id call.begin label → label = .proceed id) (hleave : label ≠ .leave id)
    (hstep : s.step label = some t) (hs : IsAt id call outcome s) : IsAt id call outcome t := by
  by_cases hid : label.caller? = some id
  · rcases hs with hpost | hpost
    · cases own_of_step hstep hid hpost with
      | proceed =>
        simp only [step, hpost] at hstep
        cases hstep
      | leave => exact absurd rfl hleave
    · obtain rfl := hown label (own_of_step hstep hid hpost)
      rw [hproceed hpost] at hstep
      cases hstep
      exact .inl (Table.get?_set_self _ _ _)
  · unfold IsAt
    rwa [get?_callers_of_step hstep hid]

private theorem isAt_of_run {labels : List Label} (hs : s.Released) (hreachable : s.Reachable)
    (hproceed : ∀ s, Released s → s.callers.get? id = some call.begin →
      s.step (.proceed id) = some (s.finish id outcome))
    (hown : ∀ label, Own id call.begin label → label = .proceed id) (hleave : .leave id ∉ labels)
    (hrun : s.run labels = some t) (hat : IsAt id call outcome s) : IsAt id call outcome t := by
  induction labels generalizing s with
  | nil =>
    cases hrun
    exact hat
  | cons label labels ih =>
    obtain ⟨u, hstep, hrest⟩ := Option.bind_eq_some_iff.mp hrun
    have hu : Reaches s u := .step label (.refl s) hstep
    rw [List.mem_cons, not_or] at hleave
    refine ih (hs.reaches hreachable hu) (hreachable.trans hu) hleave.2 hrest ?_
    exact isAt_of_step (hproceed s hs) hown (Ne.symm hleave.1) hstep hat

/-- A call that ends when its caller first goes on comes to its end. -/
private theorem Released.comesTo (hs : s.Released) (hreachable : s.Reachable)
    (hproceed : ∀ s id, Released s → s.callers.get? id = some call.begin →
      s.step (.proceed id) = some (s.finish id outcome))
    (hown : ∀ id label, Own id call.begin label → label = .proceed id) :
    s.ComesTo call outcome := by
  intro id t labels u hcall hleave hrun
  have hbegun : t.callers.get? id = some call.begin := by
    simp only [step] at hcall
    split at hcall
    · cases hcall
      exact Table.get?_set_self _ _ _
    · cases hcall
  have hst : Reaches s t := .step _ (.refl s) hcall
  have htu : Reaches t u := reaches_of_run hrun
  have ht := hs.reaches hreachable hst
  rcases isAt_of_run ht (hreachable.trans hst) (fun s ↦ hproceed s id) (hown id) hleave hrun
    (.inr hbegun) with hdone | hpost
  · exact .inl hdone
  · exact .inr ⟨hpost, hproceed u id (ht.reaches (hreachable.trans hst) htu) hpost⟩

/-- Under a released supervisor all is over. -/
theorem Released.isOver (hs : s.Released) (hreachable : s.Reachable) : s.IsOver where
  empty := hs.empty
  noHandle cell := by simp [step, hs.unlocked, hs.empty]
  start := hs.comesTo hreachable (fun _ _ ↦ proceed_start) fun _ _ hown ↦ by cases hown; rfl
  exchange frame :=
    hs.comesTo hreachable (fun _ _ hs ↦ proceed_exchange hs) fun _ _ hown ↦ by cases hown; rfl
  stop := hs.comesTo hreachable (fun _ _ ↦ proceed_stop) fun _ _ hown ↦ by cases hown; rfl
  reaped g hpos hle := by
    obtain ⟨standing, hstanding⟩ := Option.isSome_iff_exists.mp
      ((hreachable.custody.known g).mpr ⟨hpos, hle⟩)
    obtain ⟨c, hc, _⟩ := Option.map_eq_some_iff.mp hstanding
    refine ⟨c, hc, ?_⟩
    by_cases hstatus : c.status = .reaped
    · exact .inl hstatus
    · refine .inr (hs.reaping_of_isLive hreachable ?_)
      simp [isLive, standing?, standingAmong?, hc, Child.standing, hstatus]
  strays := hreachable.straysReaped.settled fun h ↦ hs.toSealed.duty?_ne hreachable.locked _

/-! ## What a request and a wait come to -/

/-- Whatever follows, a caller that has requested shutdown still has to show it, or the supervisor
is sealed. -/
private theorem announce_or_sealed (hs : s.Reachable)
    (hduty : s.duty? (.caller id) = some .announce) (hreach : Reaches s t) :
    t.duty? (.caller id) = some .announce ∨ t.Sealed := by
  induction hreach with
  | refl => exact .inl hduty
  | @step u v label hprefix hstep ih =>
    have hu := hs.trans hprefix
    have hv := hu.trans (.step label (.refl u) hstep)
    have hmove := move_of_step hstep
    rcases ih with hannounce | hsealed
    · have hbecomes := becomes_of_move hmove (.caller id)
      rw [hannounce] at hbecomes
      generalize hafter : v.duty? (.caller id) = after at hbecomes
      cases hbecomes with
      | same => exact .inl rfl
      | announced => exact .inr (hv.shutdown.notifying id hafter)
    · exact .inr (hsealed.move hu.locked hmove).1

/-- When the call that requests shutdown has returned, the supervisor is sealed. -/
theorem Reachable.sealed_of_request {u : Supervisor} (hs : s.Reachable)
    (hpost : s.callers.get? id = some .closing) (hopen : s.isClosed = false)
    (hstep : s.step (.proceed id) = some t) (hreach : Reaches t u)
    (hdone : u.callers.get? id = some (.done outcome)) : u.Sealed := by
  have hsteps : t = { s with isClosed := true }.place id .announcing := by
    simp only [step, hpost, Option.bind_some, proceedCaller, hopen, Bool.false_eq_true,
      if_false] at hstep
    exact (Option.some.inj hstep).symm
  have hduty : t.duty? (.caller id) = some .announce := by
    rw [hsteps]
    exact ((shift_caller s.callers s.warden id .announcing).duties _).trans (if_pos rfl)
  have ht : t.Reachable := hs.trans (.step _ (.refl s) hstep)
  rcases announce_or_sealed ht hduty hreach with hannounce | hsealed
  · rw [duty?, dutyAmong?, hdone] at hannounce
    cases hannounce
  · exact hsealed

/-- A caller that waited for shutdown and is told that it is complete has seen the warden end. -/
theorem finished_of_waited (hpost : s.callers.get? id = some .waiting)
    (hstep : s.step label = some t) (hdone : t.callers.get? id = some (.done .ok)) :
    label = .proceed id ∧ s.warden = .finished := by
  by_cases hid : label.caller? = some id
  · cases own_of_step hstep hid hpost with
    | proceed =>
      refine ⟨rfl, ?_⟩
      simp only [step, hpost, Option.bind_some, proceedCaller] at hstep
      split at hstep
      · next hwarden => exact hwarden
      · cases hstep
    | waitOver =>
      simp only [step, hpost] at hstep
      split at hstep
      · cases hstep
      · cases hstep
        simp [finish, place] at hdone
  · rw [get?_callers_of_step hstep hid, hpost] at hdone
    cases hdone

/-- When the call that requests shutdown has returned, no child is spawned any more, and the
supervisor is seen to be closed for good. When a caller has waited for shutdown with success, all is
over for good. -/
theorem Reachable.closed_for_good (hs : s.Reachable) :
    (∀ id t u v outcome, s.callers.get? id = some .closing → s.isClosed = false →
      s.step (.proceed id) = some t → Reaches t u → u.callers.get? id = some (.done outcome) →
      Reaches u v →
        v.generation = u.generation ∧ v.strays = u.strays ∧ v.lifecycle = .closed) ∧
    (∀ id label t u, s.callers.get? id = some .waiting → s.step label = some t →
      t.callers.get? id = some (.done .ok) → Reaches t u → u.IsOver) := by
  constructor
  · intro id t u v outcome hpost hopen hstep htu hdone huv
    have hsealed := hs.sealed_of_request hpost hopen hstep htu hdone
    have hu : u.Reachable := (hs.trans (.step _ (.refl s) hstep)).trans htu
    obtain ⟨hv, hgeneration, hstrays⟩ := hsealed.reaches hu.locked huv
    exact ⟨hgeneration, hstrays, hv.shown⟩
  · intro id label t u hpost hstep hdone htu
    obtain ⟨_, hwarden⟩ := finished_of_waited hpost hstep hdone
    have hreach : Reaches s u := (Reaches.step label (.refl s) hstep).trans htu
    exact ((hs.released hwarden).reaches hs hreach).isOver (hs.trans hreach)

/-- One caller closes a supervisor of the default configuration and another one waits for it. The
warden kills the child when its time is over. -/
theorem closed_for_good_of_default :
    ∃ s t : Supervisor, s.Reachable ∧ s.callers.get? 1 = some .waiting ∧
      s.step (.proceed 1) = some t ∧ t.callers.get? 1 = some (.done .ok) ∧ t.generation = 1 ∧
      t.IsOver := by
  have hrun : (created {}).run [.call 0 .close, .proceed 0, .proceed 0, .proceed 0, .call 1 .wait,
    .warden, .closeNoticed, .warden, .warden, .graceOver, .warden, .warden] = some _ := rfl
  have hs : Reachable _ := ⟨{}, .launched, .equipped, none, _, rfl, reaches_of_run hrun⟩
  exact ⟨_, _, hs, rfl, rfl, rfl, rfl,
    hs.closed_for_good.2 1 (.proceed 1) _ _ rfl rfl rfl (.refl _)⟩

end

end Sidecar.Supervisor
