import Sidecar.Proofs.Supervisor.Positions
import Sidecar.Proofs.Supervisor.Touch

/-!
# The steps of an exchange

Once a caller has looked for the child in the slot, its exchange is with that child, its partner,
and with nobody else. `Leg` lists its steps with the whole state that each leads to
(`leg_of_step`): the frame goes to the partner, and tokens come from the partner.
-/

namespace Sidecar.Supervisor

/-- The child with which a caller exchanges a frame, once it has seen one. -/
def Caller.partner? : Caller → Option Generation
  | .entering g _ => some g
  | .writing g _ => some g
  | .awaiting g => some g
  | .collecting g _ => some g
  | _ => none

/-- The next step of a caller that exchanges a frame with a child. -/
inductive Leg (s : Supervisor) (id : CallerId) (g : Generation) (c : Child) :
    Caller → Label → Supervisor → Prop where
  /-- It locks the child's input. -/
  | entered {frame : Bytes} (hwriter : c.writer = none) (hinput : c.hasInput = true) :
      Leg s id g c (.entering g frame) (.proceed id)
        ((s.modifyChild g ({ · with writer := some id })).place id (.writing g frame))
  /-- The child's input is closed. -/
  | shut {frame : Bytes} (hwriter : c.writer = none) (hinput : c.hasInput = false) :
      Leg s id g c (.entering g frame) (.proceed id) (s.finish id (.failed .closed))
  /-- Its frame has been written. -/
  | written {frame : Bytes} :
      Leg s id g c (.writing g frame) (.written id)
        ((s.modifyChild g fun c ↦
          { c with writer := none, requests := frame :: c.requests }).place id (.awaiting g))
  /-- Its frame could not be written. -/
  | unwritten {frame : Bytes} {cause : IoFault} :
      Leg s id g c (.writing g frame) (.unwritten id cause)
        ((s.modifyChild g ({ · with writer := none })).finish id (.failed (writeFailure cause)))
  /-- An answer is there. -/
  | answered {token : Bytes} {rest : List Bytes} (hqueue : c.out.queue = token :: rest) :
      Leg s id g c (.awaiting g) (.receive id .out)
        ((s.modifyChild g (·.setOutlet .out { c.out with queue := rest })).finish id
          (.answer token))
  /-- The first line of an error is there. -/
  | complained {token : Bytes} {rest : List Bytes} (hqueue : c.err.queue = token :: rest) :
      Leg s id g c (.awaiting g) (.receive id .err)
        ((s.modifyChild g (·.setOutlet .err { c.err with queue := rest })).place id
          (.collecting g [token]))
  /-- No token will come. -/
  | parted {stream : Stream} (hqueue : (c.outlet stream).queue = [])
      (hdisconnected : (c.outlet stream).isDisconnected = true) :
      Leg s id g c (.awaiting g) (.receive id stream) (s.finish id (.failed .closed))
  /-- One more line of the error is there. -/
  | collected {lines : List Bytes} {token : Bytes} {rest : List Bytes}
      (hqueue : c.err.queue = token :: rest) :
      Leg s id g c (.collecting g lines) (.receive id .err)
        ((s.modifyChild g (·.setOutlet .err { c.err with queue := rest })).place id
          (.collecting g (token :: lines)))
  /-- The error has ended, as no more lines came for long enough, or none will come. -/
  | concluded {lines : List Bytes} {label : Label}
      (hlabel : label = .windowOver id ∨
        label = .receive id .err ∧ c.err.isDisconnected = true)
      (hqueue : c.err.queue = []) :
      Leg s id g c (.collecting g lines) label
        (s.finish id (.failed (.subprocess (errorText lines))))

section

variable {s t : Supervisor} {id : CallerId} {g : Generation} {c : Child} {post : Caller}
  {label : Label}

private theorem queue_of_take {o o' : Outlet} {token : Bytes} (h : o.take? = some (token, o')) :
    ∃ rest, o.queue = token :: rest ∧ o' = { o with queue := rest } := by
  unfold Outlet.take? at h
  split at h
  · cases h
  · next hqueue =>
    cases h
    exact ⟨_, hqueue, rfl⟩

private theorem queue_of_take_none {o : Outlet} (h : o.take? = none) : o.queue = [] := by
  unfold Outlet.take? at h
  split at h
  · next hqueue => exact hqueue
  · cases h

private theorem leg_of_proceed {frame : Bytes} (hchild : s.children.get? g = some c)
    (h : s.proceedCaller id (.entering g frame) = some t) :
    Leg s id g c (.entering g frame) (.proceed id) t := by
  simp only [proceedCaller, hchild] at h
  split at h
  · cases h
  · next hwriter =>
    have hfree : c.writer = none := by simpa using hwriter
    split at h
    · next hinput =>
      cases h
      exact .entered hfree hinput
    · next hinput =>
      cases h
      exact .shut hfree (by simpa using hinput)

private theorem leg_of_await {stream : Stream} (hchild : s.children.get? g = some c)
    (h : s.receiveToken id stream (.awaiting g) = some t) :
    Leg s id g c (.awaiting g) (.receive id stream) t := by
  simp only [receiveToken, hchild] at h
  split at h
  · next token o htake =>
    obtain ⟨rest, hqueue, rfl⟩ := queue_of_take htake
    cases stream <;> cases h
    · exact .answered hqueue
    · exact .complained hqueue
  · next htake =>
    split at h
    · next hdisconnected =>
      cases h
      exact .parted (queue_of_take_none htake) hdisconnected
    · cases h

private theorem leg_of_collect {stream : Stream} {lines : List Bytes}
    (hchild : s.children.get? g = some c)
    (h : s.receiveToken id stream (.collecting g lines) = some t) :
    Leg s id g c (.collecting g lines) (.receive id stream) t := by
  cases stream with
  | out => simp [receiveToken] at h
  | err =>
    simp only [receiveToken, hchild] at h
    split at h
    · next token o htake =>
      obtain ⟨rest, hqueue, rfl⟩ := queue_of_take htake
      cases h
      exact .collected hqueue
    · next htake =>
      split at h
      · next hdisconnected =>
        cases h
        exact .concluded (.inr ⟨rfl, hdisconnected⟩) (queue_of_take_none htake)
      · cases h

/-- A label of a caller that has a partner is a step of its exchange. -/
theorem leg_of_step (h : s.step label = some t) (hown : label.caller? = some id)
    (hpost : s.callers.get? id = some post) (hpartner : post.partner? = some g)
    (hchild : s.children.get? g = some c) : Leg s id g c post label t := by
  cases own_of_step h hown hpost with
  | proceed =>
    simp only [step, hpost, Option.bind_some] at h
    cases post with
    | entering g' frame =>
      cases hpartner
      exact leg_of_proceed hchild h
    | writing => cases h
    | awaiting => cases h
    | collecting => cases h
    | _ => cases hpartner
  | written =>
    simp only [step, hpost, Option.bind_some] at h
    cases hpartner
    cases h
    exact .written
  | unwritten =>
    simp only [step, hpost, Option.bind_some] at h
    cases hpartner
    cases h
    exact .unwritten
  | receive =>
    simp only [step, hpost, Option.bind_some] at h
    cases hpartner
    exact leg_of_await hchild h
  | collect =>
    simp only [step, hpost, Option.bind_some] at h
    cases hpartner
    exact leg_of_collect hchild h
  | windowOver =>
    cases hpartner
    simp only [step, hpost, hchild] at h
    split at h
    · next hqueue =>
      cases h
      exact .concluded (.inl rfl) hqueue
    · cases h
  | launch => cases hpartner
  | equip => cases hpartner
  | waitOver => cases hpartner
  | leave => cases hpartner

/-- A step is one of an exchange with a child, or nobody who has one takes it. -/
theorem leg_or_nobody_of_step (h : s.step label = some t) (hchild : s.children.get? g = some c) :
    (∃ id post, label.caller? = some id ∧ s.callers.get? id = some post ∧
      Leg s id g c post label t) ∨
    ∀ id post, label.caller? = some id → s.callers.get? id = some post → post.partner? ≠ some g := by
  by_cases hleg : ∃ id post, label.caller? = some id ∧ s.callers.get? id = some post ∧
      post.partner? = some g
  · obtain ⟨id, post, hown, hpost, hpartner⟩ := hleg
    exact .inl ⟨id, post, hown, hpost, leg_of_step h hown hpost hpartner hchild⟩
  · exact .inr fun id post hown hpost hpartner ↦ hleg ⟨id, post, hown, hpost, hpartner⟩

/-- A step of an exchange leaves all children alone but the partner. -/
theorem Leg.get?_of_ne (hleg : Leg s id g c post label t) {g' : Generation} (hne : g' ≠ g) :
    t.children.get? g' = s.children.get? g' := by
  cases hleg with
  | shut => rfl
  | parted => rfl
  | concluded => rfl
  | _ => exact Table.get?_modify_of_ne _ _ (Ne.symm hne)

/-- The only frame that a step of an exchange adds to the partner's requests is the caller's. -/
theorem Leg.requests (hleg : Leg s id g c post label t) (hchild : s.children.get? g = some c) :
    ∃ c', t.children.get? g = some c' ∧
      ((∃ frame, post = .writing g frame ∧ label = .written id ∧
          c'.requests = frame :: c.requests) ∨
        label ≠ .written id ∧ c'.requests = c.requests) := by
  have hmodified : ∀ f : Child → Child, (s.children.modify g f).get? g = some (f c) := by
    intro f
    rw [Table.get?_modify, if_pos rfl, hchild]
    rfl
  cases hleg with
  | entered => exact ⟨_, hmodified _, .inr ⟨by simp, rfl⟩⟩
  | shut => exact ⟨c, hchild, .inr ⟨by simp, rfl⟩⟩
  | written => exact ⟨_, hmodified _, .inl ⟨_, rfl, rfl, rfl⟩⟩
  | unwritten => exact ⟨_, hmodified _, .inr ⟨by simp, rfl⟩⟩
  | answered => exact ⟨_, hmodified _, .inr ⟨by simp, rfl⟩⟩
  | complained => exact ⟨_, hmodified _, .inr ⟨by simp, rfl⟩⟩
  | parted => exact ⟨c, hchild, .inr ⟨by simp, rfl⟩⟩
  | collected => exact ⟨_, hmodified _, .inr ⟨by simp, rfl⟩⟩
  | concluded hlabel =>
    refine ⟨c, hchild, .inr ⟨?_, rfl⟩⟩
    obtain rfl | ⟨rfl, -⟩ := hlabel <;> simp

/-- Who is done only leaves. -/
theorem leave_of_done {outcome : Outcome} (hpost : s.callers.get? id = some (.done outcome))
    (hstep : s.step label = some t) (hown : label.caller? = some id) : label = .leave id := by
  cases own_of_step hstep hown hpost with
  | leave => rfl
  | proceed =>
    simp only [step, hpost, Option.bind_some] at hstep
    cases hstep

/-! ## Partners -/

private theorem partner_of_set {callers : Table CallerId Caller} {after post' : Caller}
    (hcallers : t.callers = callers.set id after) (hafter : after.partner? = none)
    (hpost' : t.callers.get? id = some post') : post'.partner? = none := by
  rw [hcallers, Table.get?_set_self] at hpost'
  exact Option.some.inj hpost' ▸ hafter

private theorem partner_of_proceedStart {start : Start}
    (h : s.proceedCaller id (.starting start) = some t) {post' : Caller}
    (hpost' : t.callers.get? id = some post') : post'.partner? = none := by
  unfold proceedCaller at h
  split at h
  · split at h
    · cases h
    · split at h
      · next result _ =>
        cases h
        obtain ⟨outcome, hcallers⟩ := s.callers_finishStart id result
        exact partner_of_set hcallers rfl hpost'
      · cases h
        exact partner_of_set rfl rfl hpost'
  · obtain ⟨⟨failure, u⟩, _, rfl⟩ := Option.map_eq_some_iff.mp h
    exact partner_of_set rfl rfl hpost'
  all_goals contradiction

/-- A caller without a partner that goes on without help has none afterwards, unless it looks for
the child and finds one. -/
private theorem partner_of_proceed (h : s.proceedCaller id post = some t)
    (hbefore : post.partner? = none) {post' : Caller} (hpost' : t.callers.get? id = some post')
    (hpartner : post'.partner? = some g) :
    ∃ frame, post = .sending frame ∧ s.handle = some g ∧ post' = .entering g frame := by
  have hsome : post'.partner? ≠ none := by simp [hpartner]
  cases post with
  | sending frame =>
    simp only [proceedCaller] at h
    split at h
    · cases h
    · split at h
      · cases h
        exact absurd (partner_of_set rfl rfl hpost') hsome
      · next hhandle =>
        cases h
        cases (Table.get?_set_self ..).symm.trans hpost'
        cases hpartner
        exact ⟨frame, rfl, hhandle, rfl⟩
  | starting start => exact absurd (partner_of_proceedStart h hpost') hsome
  | entering => cases hbefore
  | _ =>
    simp only [proceedCaller] at h
    repeat' split at h
    all_goals first
      | cases h; done
      | cases h
        exact absurd (partner_of_set rfl rfl hpost') hsome

private theorem partner_of_placeStart {start : Start} {post' : Caller}
    (hpost' : (s.placeStart start (.caller id)).callers.get? id = some post') :
    post'.partner? = none :=
  partner_of_set rfl rfl hpost'

private theorem partner_of_endStart {result : Except Failure Unit} {post' : Caller}
    (hpost' : (s.endStart result (.caller id)).callers.get? id = some post') :
    post'.partner? = none := by
  obtain ⟨outcome, hcallers⟩ := s.callers_finishStart id result
  exact partner_of_set hcallers rfl hpost'

/-- Who is not there makes a call. -/
theorem call_of_absent (h : s.step label = some t) (hown : label.caller? = some id)
    (habsent : s.callers.get? id = none) : ∃ call, label = .call id call := by
  cases label with
  | call id' call =>
    obtain rfl : id' = id := Option.some.inj hown
    exact ⟨call, rfl⟩
  | launch holder outcome =>
    cases holder with
    | warden => cases hown
    | caller id' =>
      obtain rfl : id' = id := Option.some.inj hown
      simp [step, stepLaunch, startOf?, habsent] at h
  | equip holder outcome =>
    cases holder with
    | warden => cases hown
    | caller id' =>
      obtain rfl : id' = id := Option.some.inj hown
      simp [step, stepEquip, startOf?, habsent] at h
  | _ =>
    cases hown
    all_goals simp [step, habsent] at h

private theorem partner_of_unpartnered (h : s.step label = some t)
    (hbefore : ∀ post, s.callers.get? id = some post → post.partner? = none) {post' : Caller}
    (hpost' : t.callers.get? id = some post') (hpartner : post'.partner? = some g) :
    ∃ frame, s.callers.get? id = some (.sending frame) ∧ s.handle = some g ∧
      post' = .entering g frame := by
  have hsome : post'.partner? ≠ none := by simp [hpartner]
  by_cases hown : label.caller? = some id
  · cases hpost : s.callers.get? id with
    | none =>
      obtain ⟨call, rfl⟩ := call_of_absent h hown hpost
      simp only [step, hpost] at h
      cases h
      refine absurd (partner_of_set rfl ?_ hpost') hsome
      cases call <;> rfl
    | some post =>
      have hnone := hbefore post hpost
      cases own_of_step h hown hpost with
      | proceed =>
        simp only [step, hpost, Option.bind_some] at h
        obtain ⟨frame, rfl, hhandle, rfl⟩ := partner_of_proceed h hnone hpost' hpartner
        exact ⟨frame, rfl, hhandle, rfl⟩
      | @launch outcome =>
        simp only [step, stepLaunch, startOf?, hpost] at h
        cases outcome <;> cases h
        · exact absurd (partner_of_endStart hpost') hsome
        · exact absurd (partner_of_placeStart hpost') hsome
        · exact absurd (partner_of_placeStart hpost') hsome
      | @equip g' outcome =>
        simp only [step, stepEquip, startOf?, hpost] at h
        cases outcome <;> cases h
        · exact absurd (partner_of_endStart hpost') hsome
        · exact absurd (partner_of_placeStart hpost') hsome
      | waitOver =>
        simp only [step, hpost] at h
        split at h
        · cases h
        · cases h
          exact absurd (partner_of_set rfl rfl hpost') hsome
      | leave =>
        simp only [step, hpost] at h
        cases h
        rw [Table.get?_erase, if_pos rfl] at hpost'
        cases hpost'
      | _ => cases hnone
  · rw [get?_callers_of_step h hown] at hpost'
    exact absurd (hbefore post' hpost') hsome

/-- Where a step of an exchange puts the caller, it has the same partner or none. -/
theorem Leg.partner? (hleg : Leg s id g c post label t) {post' : Caller}
    (hpost' : t.callers.get? id = some post') :
    post'.partner? = some g ∨ ∃ outcome, post' = .done outcome := by
  cases hleg <;> cases (Table.get?_set_self ..).symm.trans hpost' <;>
    first | exact .inl rfl | exact .inr ⟨_, rfl⟩

/-- A caller that has a partner after a step had the same one before, or it looks for the child and
finds one. -/
theorem partner_of_step (h : s.step label = some t)
    (hchildren : ∀ post g, s.callers.get? id = some post → post.partner? = some g →
      ∃ c, s.children.get? g = some c) {post' : Caller} (hpost' : t.callers.get? id = some post')
    (hpartner : post'.partner? = some g) :
    (∃ post, s.callers.get? id = some post ∧ post.partner? = some g) ∨
      ∃ frame, s.callers.get? id = some (.sending frame) ∧ s.handle = some g ∧
        post' = .entering g frame := by
  by_cases hbefore : ∃ post g', s.callers.get? id = some post ∧ post.partner? = some g'
  · obtain ⟨post, g', hpost, hpartner'⟩ := hbefore
    obtain ⟨c, hchild⟩ := hchildren post g' hpost hpartner'
    left
    by_cases hown : label.caller? = some id
    · rcases (leg_of_step h hown hpost hpartner' hchild).partner? hpost' with hsame | ⟨_, rfl⟩
      · rw [hpartner] at hsame
        exact ⟨post, hpost, hpartner'.trans hsame.symm⟩
      · cases hpartner
    · rw [get?_callers_of_step h hown] at hpost'
      exact ⟨post', hpost', hpartner⟩
  · right
    refine partner_of_unpartnered h (fun post hpost ↦ ?_) hpost' hpartner
    cases hpartner' : post.partner? with
    | none => rfl
    | some g' => exact absurd ⟨post, g', hpost, hpartner'⟩ hbefore

end

end Sidecar.Supervisor
