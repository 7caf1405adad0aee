import Sidecar.Proofs.Stage.Workshop

/-!
# Batches do not mix

A stage whose child replies to each request in order behaves as if every request were answered at
once: each act of a worker is a move of a worker of a shared stage, whose peer gives the replies in
order (`Mirrors`), and the steps of the supervisor in between change nothing that a worker can see.
With the order of the calls to a shared stage this shows that calls do not mix
(`calls_take_turns`).
-/

namespace Sidecar.Stage

open Supervisor (Label Caller CallerId Child Outcome Serves Answers Serialized Sight Paired created
  Steady)

/-- A peer that gives replies in order and remembers what it was asked. -/
def answering (replies : Nat → Supervisor.Reply) (request : Request) (heard : List Bytes) :
    Reply × List Bytes :=
  ((replies heard.length).outcome.reply, heard ++ [request.frame])

namespace Workshop

/-- A caller is on its way to write a frame. -/
inductive Asks (frame : Bytes) : Caller → Prop where
  | sending : Asks frame (.sending frame)
  | entering : Asks frame (.entering 1 frame)
  | writing : Asks frame (.writing 1 frame)

/-- How the child stands with the worker that asks, given the requests that were replied to. -/
inductive Dealing (replies : Nat → Supervisor.Reply) (w : Workshop) (heard : List Bytes)
    (c : Child) : Prop where
  | idle (hcallers : ∀ id, w.supervisor.callers.get? id = none)
      (hrequests : c.requests = heard.reverse)
  | asking {id : WorkerId} {waiting finished : List Batch} {request : Request}
      {next : Reply → Dialogue (Batch × Tally)} {post : Caller}
      (hworker : w.workers.get? id = some ⟨waiting, some (.ask request next), finished⟩)
      (hpost : w.supervisor.callers.get? id = some post) (hasks : Asks request.frame post)
      (hrequests : c.requests = heard.reverse)
  | waiting {id : WorkerId} {waiting finished : List Batch} {request : Request}
      {next : Reply → Dialogue (Batch × Tally)} {post : Caller}
      (hworker : w.workers.get? id = some ⟨waiting, some (.ask request next), finished⟩)
      (hpost : w.supervisor.callers.get? id = some post)
      (hserves : Serves replies 1 heard.length c post)
      (hrequests : c.requests = request.frame :: heard.reverse)

section

variable {config : Config} {labels past : List Label} {replies : Nat → Supervisor.Reply}
  {w w' : Workshop} {heard : List Bytes} {c c' : Child} {label : Label} {v : Supervisor}
  {id : WorkerId} {post : Caller}

/-! ## One step of the supervisor -/

/-- Whoever calls for a worker is the one that asks: it is on its way to write its request, or it has
written it. -/
theorem Dealing.of_caller (h : Dealing replies w heard c) (hmanned : Manned w)
    (hpost : w.supervisor.callers.get? id = some post) :
    ∃ waiting request next finished,
      w.workers.get? id = some ⟨waiting, some (.ask request next), finished⟩ ∧
      (Asks request.frame post ∧ c.requests = heard.reverse ∨
        Serves replies 1 heard.length c post ∧ c.requests = request.frame :: heard.reverse) := by
  cases h with
  | idle hcallers _ => cases (hcallers id).symm.trans hpost
  | asking hworker hpost' hasks hrequests =>
    obtain rfl := hmanned.only hpost hpost'
    obtain rfl := Option.some.inj (hpost.symm.trans hpost')
    exact ⟨_, _, _, _, hworker, .inl ⟨hasks, hrequests⟩⟩
  | waiting hworker hpost' hserves hrequests =>
    obtain rfl := hmanned.only hpost hpost'
    obtain rfl := Option.some.inj (hpost.symm.trans hpost')
    exact ⟨_, _, _, _, hworker, .inr ⟨hserves, hrequests⟩⟩

/-- Whoever calls for a worker makes an exchange. -/
theorem Dealing.isExchanging (h : Dealing replies w heard c) (hmanned : Manned w)
    (hpost : w.supervisor.callers.get? id = some post) : post.isExchanging := by
  obtain ⟨_, _, _, _, -, ⟨hasks, -⟩ | ⟨hserves, -⟩⟩ := h.of_caller hmanned hpost
  · cases hasks <;> rfl
  · cases hserves with
    | waits hwaits _ => cases hwaits <;> rfl
    | done => rfl

/-- A label that is no caller's adds no request. -/
private theorem requests_of_quiet (hsight : Sight (created config) labels 1 past w.supervisor c)
    (hanswers : Answers (created config) labels 1 replies) (hstep : w.supervisor.step label = some v)
    (hchild' : v.children.get? 1 = some c')
    (hquiet : ∀ id, label.caller? = some id → w.supervisor.callers.get? id = none) :
    c'.requests = c.requests := by
  have hu := (Supervisor.reachable_created config).run hsight.run
  obtain ⟨c'', hchild'', htouch⟩ :=
    Supervisor.touch_of_step hstep (hu.le_of_child hsight.child) hsight.child
  obtain rfl := Option.some.inj (hchild'.symm.trans hchild'')
  refine (hsight.calm hanswers (fun id post hown hpost ↦ ?_) htouch).1
  cases (hquiet id hown).symm.trans hpost

/-- A caller that is on its way to write a frame goes on, and at last has written it. -/
private theorem Asks.own {frame : Bytes} (h : Asks frame post)
    (replies : Nat → Supervisor.Reply) (hsteady : Steady w.supervisor 1 c)
    (hchild : w.supervisor.children.get? 1 = some c)
    (hpost : w.supervisor.callers.get? id = some post) (hown : label.caller? = some id)
    (hwritable : ∀ cause, label ≠ .unwritten id cause)
    (hstep : w.supervisor.step label = some v) (hchild' : v.children.get? 1 = some c') :
    ∃ post', v.callers.get? id = some post' ∧
      (Asks frame post' ∧ c'.requests = c.requests ∨
        Serves replies 1 c.requests.length c' post' ∧ c'.requests = frame :: c.requests) := by
  cases h with
  | sending =>
    cases Supervisor.own_of_step hstep hown hpost with
    | proceed =>
      simp only [Supervisor.step, hpost, Option.bind_some, Supervisor.proceedCaller, hsteady.lock,
        Option.isSome_none, Bool.false_eq_true, if_false, hsteady.handle,
        Option.some.injEq] at hstep
      subst hstep
      obtain rfl := Option.some.inj (hchild.symm.trans hchild')
      exact ⟨_, Table.get?_set_self .., .inl ⟨.entering, rfl⟩⟩
  | entering =>
    have hleg := Supervisor.leg_of_step hstep hown hpost rfl hchild
    obtain ⟨c'', hchild'', ⟨_, hwriting, -, -⟩ | ⟨-, hrequests⟩⟩ := hleg.requests hchild
    · cases hwriting
    · obtain rfl := Option.some.inj (hchild'.symm.trans hchild'')
      cases hleg with
      | entered => exact ⟨_, Table.get?_set_self .., .inl ⟨.writing, hrequests⟩⟩
      | shut _ hinput => cases hsteady.hasInput.symm.trans hinput
  | writing =>
    have hleg := Supervisor.leg_of_step hstep hown hpost rfl hchild
    cases Supervisor.own_of_step hstep hown hpost with
    | proceed => cases hleg
    | unwritten => exact absurd rfl (hwritable _)
    | written =>
      obtain ⟨c'', post', hchild'', hpost', hserves⟩ :=
        Supervisor.serves_of_written hpost hchild hstep
      obtain rfl := Option.some.inj (hchild'.symm.trans hchild'')
      refine ⟨post', hpost', .inr ⟨hserves, ?_⟩⟩
      obtain ⟨c'', hchild'', ⟨_, heq, -, hrequests⟩ | ⟨hne, -⟩⟩ := hleg.requests hchild
      · cases heq
        obtain rfl := Option.some.inj (hchild'.symm.trans hchild'')
        exact hrequests
      · exact absurd rfl hne

/-- A step that the supervisor takes by itself takes the worker's exchange on, or leaves it where it
is. -/
private theorem Dealing.aside (h : Dealing replies w heard c) (hmanned : Manned w)
    (hsteady : Steady w.supervisor 1 c)
    (hsight : Sight (created config) labels 1 past w.supervisor c)
    (hsight' : Sight (created config) labels 1 (past ++ [label]) v c')
    (hpaired : Paired (created config) replies past 1 w.supervisor c)
    (hanswers : Answers (created config) labels 1 replies)
    (hserial : Serialized (created config) labels 1) (hcall : ∀ id call, label ≠ .call id call)
    (hleave : ∀ id, label ≠ .leave id) (hwritable : ∀ id cause, label ≠ .unwritten id cause)
    (hstep : w.supervisor.step label = some v) :
    Dealing replies (w.withSupervisor v) heard c' := by
  cases h with
  | idle hcallers hrequests =>
    have hnobody : ∀ id, label.caller? ≠ some id := by
      intro id hown
      obtain ⟨call, rfl⟩ := Supervisor.call_of_absent hstep hown (hcallers id)
      exact hcall id call rfl
    refine .idle (fun id ↦ ?_) ?_
    · exact (Supervisor.get?_callers_of_step hstep (hnobody id)).trans (hcallers id)
    · rw [← hrequests]
      exact requests_of_quiet hsight hanswers hstep hsight'.child fun id hown ↦
        absurd hown (hnobody id)
  | @asking id _ _ request _ post hworker hpost hasks hrequests =>
    by_cases hown : label.caller? = some id
    · obtain ⟨post', hpost', ⟨hasks', hsame⟩ | ⟨hserves, hmore⟩⟩ :=
        hasks.own replies hsteady hsight.child hpost hown (hwritable id) hstep
          hsight'.child
      · exact .asking hworker hpost' hasks' (hsame.trans hrequests)
      · rw [hrequests] at hserves hmore
        rw [List.length_reverse] at hserves
        exact .waiting hworker hpost' hserves hmore
    · refine .asking hworker ((Supervisor.get?_callers_of_step hstep hown).trans hpost) hasks ?_
      rw [← hrequests]
      exact requests_of_quiet hsight hanswers hstep hsight'.child fun id' hown' ↦
        Option.eq_none_iff_forall_not_mem.mpr fun post' hpost' ↦
          hown (hmanned.only hpost' hpost ▸ hown')
  | @waiting id _ _ request _ post hworker hpost hserves hrequests =>
    obtain ⟨post', hpost', hserves'⟩ :=
      hserves.step hpaired hsight hsight' hanswers hserial hstep hpost (hleave id)
    refine .waiting hworker hpost' hserves' ?_
    rw [← hrequests]
    cases hserves with
    | waits hwaits _ => exact hsight.requests_eq hsight' hanswers hserial hstep hpost hwaits
    | done =>
      have hother : label.caller? ≠ some id := fun hown ↦
        hleave id (Supervisor.leave_of_done hpost hstep hown)
      exact requests_of_quiet hsight hanswers hstep hsight'.child fun id' hown' ↦
        Option.eq_none_iff_forall_not_mem.mpr fun post' hpost' ↦
          hother (hmanned.only hpost' hpost ▸ hown')

/-! ## One act -/

/-- A shared stage does what a stage with a supervisor does. -/
structure Mirrors (config : Config) (replies : Nat → Supervisor.Reply) (w : Workshop)
    (shared : Shared (List Bytes)) (c : Child) : Prop where
  config : shared.config = config
  peer : shared.peer = answering replies
  tally : shared.tally = w.tally
  lock : shared.lock = w.lock
  workers : shared.workers = w.workers
  child : w.supervisor.children.get? 1 = some c
  steady : Steady w.supervisor 1 c
  dealing : Dealing replies w shared.state c

namespace Mirrors

variable {shared : Shared (List Bytes)}

/-- A worker that locks the stage locks the shared stage. -/
private theorem takeUp {batch : Batch} {waiting finished : List Batch}
    (h : Mirrors config replies w shared c) (hmanned : Manned w)
    (hconfig : w.supervisor.config = config)
    (hworker : w.workers.get? id = some ⟨batch :: waiting, none, finished⟩)
    (hlock : w.lock = none) :
    ∃ shared', shared.step id = some shared' ∧ Mirrors config replies
      { w with
        lock := some id
        workers := w.workers.set id
          ⟨waiting, some (process w.supervisor.config batch w.tally), finished⟩ } shared' c := by
  refine ⟨_, Shared.step_eq_some_iff.mpr (.takenUp (h.workers ▸ hworker) (h.lock.trans hlock)),
    h.config, h.peer, h.tally, rfl, ?_, h.child, h.steady, .idle (fun id' ↦ ?_) ?_⟩
  · simp only [h.workers, h.config, h.tally, hconfig]
  · exact Option.eq_none_iff_forall_not_mem.mpr fun post hpost ↦ by
      cases (hmanned.lock_of_caller hpost).symm.trans hlock
  · cases h.dealing with
    | idle _ hrequests => exact hrequests
    | asking _ hpost _ _ => cases (hmanned.lock_of_caller hpost).symm.trans hlock
    | waiting _ hpost _ _ => cases (hmanned.lock_of_caller hpost).symm.trans hlock

/-- A worker that is done with its batch is done with it in the shared stage. -/
private theorem putDown {batch : Batch} {tally : Tally} {waiting finished : List Batch}
    (h : Mirrors config replies w shared c) (hmanned : Manned w)
    (hworker : w.workers.get? id = some ⟨waiting, some (.done (batch, tally)), finished⟩) :
    ∃ shared', shared.step id = some shared' ∧ Mirrors config replies
      { w with
        lock := none, tally, workers := w.workers.set id ⟨waiting, none, batch :: finished⟩ }
      shared' c := by
  have hlock : w.lock = some id := hmanned.held id _ hworker (Option.some_ne_none _)
  have hnobody : ∀ id' post, w.supervisor.callers.get? id' ≠ some post := by
    intro id' post hpost
    obtain rfl := Option.some.inj (hlock.symm.trans (hmanned.lock_of_caller hpost))
    obtain ⟨_, _, _, _, hasking⟩ := hmanned.callers _ post hpost
    cases hworker.symm.trans hasking
  refine ⟨_, Shared.step_eq_some_iff.mpr (.putDown (h.workers ▸ hworker)), h.config, h.peer, rfl,
    rfl, ?_, h.child, h.steady,
    .idle (fun id' ↦ Option.eq_none_iff_forall_not_mem.mpr (hnobody id')) ?_⟩
  · simp only [h.workers]
  · cases h.dealing with
    | idle _ hrequests => exact hrequests
    | asking _ hpost _ _ => exact absurd hpost (hnobody _ _)
    | waiting _ hpost _ _ => exact absurd hpost (hnobody _ _)

/-- A worker that calls is nothing to the shared stage. -/
private theorem call {request : Request} {next : Reply → Dialogue (Batch × Tally)}
    {waiting finished : List Batch} (h : Mirrors config replies w shared c) (hmanned : Manned w)
    (hworker : w.workers.get? id = some ⟨waiting, some (.ask request next), finished⟩)
    (hstep : w.supervisor.step (.call id (.exchange request.frame)) = some v)
    (hchild' : v.children.get? 1 = some c') (hsteady' : Steady v 1 c') :
    Mirrors config replies (w.withSupervisor v) shared c' := by
  have hlock : w.lock = some id := hmanned.held id _ hworker (Option.some_ne_none _)
  simp only [Supervisor.step] at hstep
  split at hstep
  · next habsent =>
    cases hstep
    obtain rfl := Option.some.inj (h.child.symm.trans hchild')
    refine ⟨h.config, h.peer, h.tally, h.lock, h.workers, hchild', hsteady',
      .asking hworker (Table.get?_set_self ..) .sending ?_⟩
    have hnobody : ∀ id' post, w.supervisor.callers.get? id' ≠ some post := by
      intro id' post hpost
      obtain rfl := Option.some.inj (hlock.symm.trans (hmanned.lock_of_caller hpost))
      cases habsent.symm.trans hpost
    cases h.dealing with
    | idle _ hrequests => exact hrequests
    | asking _ hpost _ _ => exact absurd hpost (hnobody _ _)
    | waiting _ hpost _ _ => exact absurd hpost (hnobody _ _)
  · cases hstep

/-- A worker that has got its reply has made a request in the shared stage. -/
private theorem reply {request : Request} {next : Reply → Dialogue (Batch × Tally)}
    {waiting finished : List Batch} {outcome : Outcome}
    (h : Mirrors config replies w shared c) (hmanned : Manned w)
    (hworker : w.workers.get? id = some ⟨waiting, some (.ask request next), finished⟩)
    (hpost : w.supervisor.callers.get? id = some (.done outcome))
    (hstep : w.supervisor.step (.leave id) = some v)
    (hchild' : v.children.get? 1 = some c') (hsteady' : Steady v 1 c') :
    ∃ shared', shared.step id = some shared' ∧ Mirrors config replies
      { w with
        supervisor := v
        workers := w.workers.set id ⟨waiting, some (next outcome.reply), finished⟩ }
      shared' c' := by
  simp only [Supervisor.step, hpost, Option.some.injEq] at hstep
  subst hstep
  obtain rfl := Option.some.inj (h.child.symm.trans hchild')
  have hnobody : ∀ id', (w.supervisor.callers.erase id).get? id' = none := by
    intro id'
    rw [Table.get?_erase]
    split
    · rfl
    · next hne =>
      exact Option.eq_none_iff_forall_not_mem.mpr fun post' hpost' ↦
        hne (hmanned.only hpost hpost')
  have hasked := Shared.step_eq_some_iff.mpr (.asked (h.workers ▸ hworker))
  obtain ⟨_, _, _, _, hworker', ⟨hasks, -⟩ | ⟨hserves, hrequests⟩⟩ :=
    h.dealing.of_caller hmanned hpost
  · cases hasks
  · cases hworker.symm.trans hworker'
    cases hserves with
    | waits hwaits _ => cases hwaits
    | done =>
      refine ⟨_, hasked, h.config, h.peer, h.tally, h.lock, ?_, hchild', hsteady',
        .idle hnobody ?_⟩
      · simp only [h.workers, h.peer, answering]
      · simp only [h.peer, answering, hrequests, List.reverse_append, List.reverse_cons,
          List.reverse_nil, List.nil_append, List.singleton_append]

/-- An act is a move of a worker of the shared stage, or nothing to it. -/
theorem step {act : Act} (h : Mirrors config replies w shared c) (hmanned : Manned w)
    (hanswers : Answers (created config) labels 1 replies)
    (hserial : Serialized (created config) labels 1)
    (hwritable : ∀ id cause, Label.unwritten id cause ∉ labels)
    (hrun : (created config).run past = some w.supervisor)
    (hwithin : past ++ act.label?.toList <+: labels) (hact : ActStep w act w') :
    ∃ ids shared' c', shared.moves ids = some shared' ∧ Mirrors config replies w' shared' c' := by
  have hpast : past <+: labels := (List.prefix_append _ _).trans hwithin
  obtain ⟨hsight, hpaired⟩ := Supervisor.paired_of_run hanswers hserial hpast hrun h.child
  have hconfig : w.supervisor.config = config := Supervisor.config_of_run hrun
  have hnext : ∀ {label v}, past ++ [label] <+: labels → w.supervisor.step label = some v →
      ∃ c', Sight (created config) labels 1 (past ++ [label]) v c' ∧ Steady v 1 c' := by
    intro label v hwithin hstep
    obtain ⟨c', hsight', -⟩ := hpaired.step hsight hanswers hserial hwithin hstep
    exact ⟨c', hsight', h.steady.step h.child hsight.decoding
      (fun _ _ ↦ h.dealing.isExchanging hmanned) hstep hsight'.child⟩
  cases hact with
  | @takenUp id _ _ _ hworker hlock =>
    obtain ⟨shared', hmove, hmirrors⟩ := h.takeUp hmanned hconfig hworker hlock
    exact ⟨[id], shared', c, by simp [Shared.moves, hmove], hmirrors⟩
  | @putDown id _ _ _ _ hworker =>
    obtain ⟨shared', hmove, hmirrors⟩ := h.putDown hmanned hworker
    exact ⟨[id], shared', c, by simp [Shared.moves, hmove], hmirrors⟩
  | called hworker hstep =>
    obtain ⟨c', hsight', hsteady'⟩ := hnext hwithin hstep
    exact ⟨[], shared, c', rfl, h.call hmanned hworker hstep hsight'.child hsteady'⟩
  | @replied id _ _ _ _ _ _ hworker hpost hstep =>
    obtain ⟨c', hsight', hsteady'⟩ := hnext hwithin hstep
    obtain ⟨shared', hmove, hmirrors⟩ :=
      h.reply hmanned hworker hpost hstep hsight'.child hsteady'
    exact ⟨[id], shared', c', by simp [Shared.moves, hmove], hmirrors⟩
  | @aside label v hcall hleave hstep =>
    obtain ⟨c', hsight', hsteady'⟩ := hnext hwithin hstep
    have hwritten : ∀ id cause, label ≠ .unwritten id cause := by
      rintro id cause rfl
      exact hwritable id cause (hwithin.subset (by simp [Act.label?]))
    exact ⟨[], shared, c', rfl, h.config, h.peer, h.tally, h.lock, h.workers, hsight'.child,
      hsteady', h.dealing.aside hmanned h.steady hsight hsight' hpaired hanswers hserial hcall
        hleave hwritten hstep⟩

end Mirrors

/-- Every run is one of a shared stage. -/
theorem mirrors_of_run {acts : List Act} {w₀ : Workshop} (hfresh : Fresh w₀ config)
    (hrun : w₀.run acts = some w)
    (hanswers : Answers (created config) (labelsOf acts) 1 replies)
    (hwritable : ∀ id cause, Label.unwritten id cause ∉ labelsOf acts) :
    ∃ ids shared c, (⟨config, answering replies, [], {}, none, w₀.workers⟩ : Shared _).moves ids =
      some shared ∧ Mirrors config replies w shared c := by
  have hserial := serialized_of_run hfresh hrun 1
  refine run_induction (P := fun past w ↦ labelsOf past <+: labelsOf acts → ∃ ids shared c,
    (⟨config, answering replies, [], {}, none, w₀.workers⟩ : Shared _).moves ids = some shared ∧
      Mirrors config replies w shared c) (fun _ ↦ ?_) (fun past act t u hpast ih hact hwithin ↦ ?_)
    hrun List.prefix_rfl
  · refine ⟨[], _, .fresh config false, rfl, rfl, rfl, hfresh.tally.symm, hfresh.lock.symm, rfl, ?_,
      ?_, .idle (fun id ↦ ?_) rfl⟩
    · rw [hfresh.supervisor]
      exact Table.get?_set_self ..
    · rw [hfresh.supervisor]
      exact Supervisor.steady_created config
    · rw [hfresh.supervisor]
      rfl
  · rw [labelsOf_concat] at hwithin
    obtain ⟨ids, shared, c, hmoves, hmirrors⟩ := ih ((List.prefix_append _ _).trans hwithin)
    have hsupervisor := supervisor_of_run hpast
    rw [hfresh.supervisor] at hsupervisor
    obtain ⟨ids', shared', c', hmoves', hmirrors'⟩ := hmirrors.step (manned_of_run hfresh hpast)
      hanswers hserial hwritable hsupervisor hwithin hact
    refine ⟨ids ++ ids', shared', c', ?_, hmirrors'⟩
    rw [Shared.moves, List.foldlM_append, Option.bind_eq_bind, Option.bind_eq_some_iff]
    exact ⟨shared, hmoves, hmoves'⟩

end

end Workshop

/-! ## What the child is asked -/

/-- The bytes of the requests of a conversation. -/
def framesOf (talk : List (Request × Reply)) : List Bytes := talk.map (·.1.frame)

section

variable {config : Config} {replies : Nat → Supervisor.Reply} {heard mid : List Bytes}

/-- The peer remembers the requests of a dialogue. -/
theorem run_answering {α : Type} (d : Dialogue α) (replies : Nat → Supervisor.Reply)
    (heard : List Bytes) :
    (d.run (answering replies) heard).2 =
      heard ++ framesOf (d.transcript (answering replies) heard) := by
  induction d generalizing heard with
  | done a => exact (List.append_nil heard).symm
  | ask request next ih =>
    rw [Dialogue.run, Dialogue.transcript]
    exact (ih _ _).trans (List.append_assoc heard [request.frame] _)

/-- The peer remembers the requests so far. -/
theorem leads_answering {α : Type} {d rest : Dialogue α} {talk : List (Request × Reply)}
    (h : d.Leads (answering replies) heard talk rest mid) : mid = heard ++ framesOf talk := by
  induction h with
  | start => exact (List.append_nil heard).symm
  | @reply talk request next mid h ih =>
    simp only [answering, ih, framesOf, List.map_append, List.map_cons, List.map_nil,
      List.append_assoc]

/-- The peer remembers the requests of calls in the order of the calls. -/
theorem inTurn_answering (jobs : List Job) (tally : Tally) (heard : List Bytes) :
    (inTurn config (answering replies) jobs tally heard).2.2 =
      heard ++ (inTurn config (answering replies) jobs tally heard).1.flatMap
        fun entry ↦ framesOf entry.talk := by
  induction jobs generalizing tally heard with
  | nil => exact (List.append_nil heard).symm
  | cons job rest ih =>
    simp only [inTurn, List.flatMap_cons, ih, run_answering, List.append_assoc]

end

namespace Workshop

section

variable {config : Config} {replies : Nat → Supervisor.Reply} {w : Workshop}
  {shared₀ shared : Shared (List Bytes)} {c : Child} {jobs : List Job}
  {pending : Option (Job × List (Request × Reply))}

/-- What the child was asked are the requests of the calls that have returned, in their order, and
the first requests of the one that has not. -/
private theorem Mirrors.requests (h : Mirrors config replies w shared c)
    (horder : shared₀.InOrder shared jobs pending) (hpeer : shared₀.peer = answering replies)
    (hstate : shared₀.state = []) :
    ∃ begun, c.requests.reverse =
        ((shared₀.after jobs).1.flatMap fun entry ↦ framesOf entry.talk) ++ begun ∧
      begun <+: match pending.map Prod.fst with
        | none => []
        | some job => framesOf ((process shared₀.config job.batch (shared₀.after jobs).2.1).transcript
            (answering replies) (shared₀.after jobs).2.2) := by
  have hheard : (shared₀.after jobs).2.2 =
      (shared₀.after jobs).1.flatMap fun entry ↦ framesOf entry.talk := by
    simp only [Shared.after, hpeer, inTurn_answering, hstate, List.nil_append]
  -- Without a request that waits for its reply, the peer has heard all that the child was asked.
  have hreplied (hrequests : c.requests = shared.state.reverse) :
      ∃ begun, c.requests.reverse = (shared₀.after jobs).2.2 ++ begun ∧
        begun <+: match pending.map Prod.fst with
          | none => []
          | some job =>
            framesOf ((process shared₀.config job.batch (shared₀.after jobs).2.1).transcript
              (answering replies) (shared₀.after jobs).2.2) := by
    rw [hrequests, List.reverse_reverse]
    cases pending with
    | none => exact ⟨[], by rw [horder.idle rfl, List.append_nil], List.prefix_rfl⟩
    | some call =>
      obtain ⟨job, talk⟩ := call
      obtain ⟨-, rest, -, -, hleads⟩ := horder.busy job talk rfl
      rw [hpeer] at hleads
      refine ⟨framesOf talk, leads_answering hleads, ?_⟩
      simp only [Option.map_some, hleads.transcript, framesOf, List.map_append]
      exact List.prefix_append _ _
  rw [← hheard]
  cases h.dealing with
  | idle _ hrequests => exact hreplied hrequests
  | asking _ _ _ hrequests => exact hreplied hrequests
  | @waiting id _ _ request _ _ hworker _ _ hrequests =>
    obtain ⟨batch, talk, rfl, hleads⟩ := horder.pending_of_current (h.workers ▸ hworker) rfl
    rw [hpeer] at hleads
    refine ⟨framesOf talk ++ [request.frame], ?_, ?_⟩
    · rw [hrequests, List.reverse_cons, List.reverse_reverse, leads_answering hleads,
        List.append_assoc]
    · simp only [Option.map_some, hleads.transcript, framesOf, List.map_append, Dialogue.transcript,
        List.map_cons]
      exact (List.prefix_append_right_inj _).mpr (List.prefix_append [request.frame] _)

end

/-- When a child replies to its requests in order and nobody else uses the supervisor, calls to
process batches can be put in a row: what each of them has returned is what it returns when the calls
are made one after the other, and what the child has been asked are the requests of the first call,
then those of the second, and so on, down to those of a call that has not returned. -/
theorem calls_take_turns {config : Config} {launch : Supervisor.Launch} {equip : Supervisor.Equip}
    {wardenFault : Option IoFault} {s : Supervisor} {workers : Table WorkerId Worker}
    {replies : Nat → Supervisor.Reply} {acts : List Act} {w : Workshop}
    (hcreate : Supervisor.create config launch equip wardenFault = .ok s)
    (hfresh : ∀ id worker, workers.get? id = some worker → worker = .fresh worker.waiting)
    (hrun : (⟨s, {}, none, workers⟩ : Workshop).run acts = some w)
    (hanswers : Answers s (labelsOf acts) 1 replies)
    (hwritable : ∀ id cause, Label.unwritten id cause ∉ labelsOf acts) :
    ∃ (jobs : List Job) (pending : Option Job) (c : Child),
      let (entries, tally, heard) := inTurn config (answering replies) jobs {} []
      (∀ id worker, workers.get? id = some worker → ∃ worker', w.workers.get? id = some worker' ∧
        worker.waiting = batchesOf id (jobs ++ pending.toList) ++ worker'.waiting ∧
        worker'.finished.reverse = resultsOf id entries) ∧
      w.lock = pending.map (·.worker) ∧ w.supervisor.children.get? 1 = some c ∧
      ∃ begun, c.requests.reverse = (entries.flatMap fun entry ↦ framesOf entry.talk) ++ begun ∧
        begun <+: match pending with
          | none => []
          | some job => framesOf ((process config job.batch tally).transcript (answering replies)
              heard) := by
  obtain rfl := Supervisor.create_eq_ok hcreate
  obtain ⟨ids, shared, c, hmoves, hmirrors⟩ :=
    mirrors_of_run ⟨rfl, rfl, rfl, hfresh⟩ hrun hanswers hwritable
  obtain ⟨jobs, pending, horder⟩ := Shared.inOrder_of_moves rfl hfresh hmoves
  refine ⟨jobs, pending.map Prod.fst, c, fun id worker hworker ↦ ?_, ?_, hmirrors.child,
    hmirrors.requests horder rfl rfl⟩
  · obtain ⟨worker', hworker', hwaiting, hfinished⟩ := horder.workers id worker hworker
    refine ⟨worker', hmirrors.workers ▸ hworker', ?_, hfinished⟩
    rw [hwaiting]
    cases pending <;> rfl
  · rw [← hmirrors.lock, horder.lock, Option.map_map]
    rfl

/-- Two workers with a batch each; the child answers the one and complains to the other. -/
private def pair : Workshop :=
  ⟨created {}, {}, none, (Table.empty.set 0 (.fresh [.ofPayloads [[0x61]]])).set 1
    (.fresh [.ofPayloads [[0x63]]])⟩

private def pairActs : List Act :=
  [.takeUp 0, .inner (.call 0 (.exchange [0x61, 0x0a])), .inner (.proceed 0), .inner .warden,
    .inner (.proceed 0), .inner (.written 0), .inner (.emit 1 .out [0x62, 0x0a]),
    .inner (.receive 0 .out), .inner (.leave 0), .putDown 0, .takeUp 1,
    .inner (.call 1 (.exchange [0x63, 0x0a])), .inner (.proceed 1), .inner (.proceed 1),
    .inner (.written 1), .inner (.emit 1 .err [0x78, 0x0a]), .inner (.receive 1 .err),
    .inner (.windowOver 1), .inner (.leave 1), .putDown 1]

private theorem fresh_pair (id : WorkerId) (worker : Worker)
    (h : pair.workers.get? id = some worker) : worker = .fresh worker.waiting := by
  simp only [pair, Table.get?_set, Table.get?_empty] at h
  split at h
  · cases h
    rfl
  · split at h
    · cases h
      rfl
    · cases h

private theorem answers_pairActs :
    Answers (created {}) (labelsOf pairActs) 1 Supervisor.dialogueReplies :=
  Supervisor.answers_of_holdsAlong Supervisor.isRead_dialogue
    (fun stream ↦ by cases stream <;> decide) (by decide +kernel) (by decide +kernel)

/-- Two workers take turns, and each gets back the reply to its own request. -/
theorem calls_take_turns_of_pair :
    ∃ w, pair.run pairActs = some w ∧
      Answers (created {}) (labelsOf pairActs) 1 Supervisor.dialogueReplies ∧
      w.results 0 = [.ofPayloads [[0x62]]] ∧ w.results 1 = [⟨[⟨[0x63], some "x"⟩]⟩] ∧
      ∃ (jobs : List Job) (pending : Option Job), w.lock = pending.map (·.worker) ∧
        w.results 0 = resultsOf 0 (inTurn {} (answering Supervisor.dialogueReplies) jobs {} []).1 ∧
        w.results 1 = resultsOf 1 (inTurn {} (answering Supervisor.dialogueReplies) jobs {} []).1 := by
  have hresults : (pair.run pairActs).map (fun w ↦ (w.results 0, w.results 1)) =
      some ([.ofPayloads [[0x62]]], [⟨[⟨[0x63], some "x"⟩]⟩]) := by
    decide +kernel
  obtain ⟨w, hrun, hboth⟩ := Option.map_eq_some_iff.mp hresults
  obtain ⟨hfirst, hsecond⟩ := Prod.mk.inj hboth
  have hcreate : Supervisor.create {} .launched .equipped none = .ok (created {}) := rfl
  have hwritable : ∀ id cause, Label.unwritten id cause ∉ labelsOf pairActs := by
    intro id cause
    simp [labelsOf, pairActs, Act.label?]
  obtain ⟨jobs, pending, c, hworkers, hlock, -⟩ :=
    calls_take_turns hcreate fresh_pair hrun answers_pairActs hwritable
  have hback : ∀ id worker, pair.workers.get? id = some worker →
      w.results id = resultsOf id (inTurn {} (answering Supervisor.dialogueReplies) jobs {} []).1 := by
    intro id worker hworker
    obtain ⟨worker', hworker', -, hfinished⟩ := hworkers id worker hworker
    rw [← hfinished, results, hworker']
  exact ⟨w, hrun, answers_pairActs, hfirst, hsecond, jobs, pending, hlock, hback 0 _ rfl,
    hback 1 _ rfl⟩

end Workshop

end Sidecar.Stage
