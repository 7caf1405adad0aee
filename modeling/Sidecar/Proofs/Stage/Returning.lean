import Sidecar.Proofs.Stage.Copying

/-!
# Workers get their batches back

No worker is stuck at a stage whose child copies: wherever a worker stands in an exchange, it can take
its next step, and where it needs an answer the child can copy what is missing (`AtWork.goesOn`). So
every call can return (`AtWork.returns`), and what it returns is the copy of its batch
(`process_returns_copies`).
-/

namespace Sidecar.Stage

open Supervisor (Label Caller Child Copies created copiesOf written)

namespace Workshop

/-- Some acts later, with the child still copying, something holds. -/
def MayReach (config : Config) (w₀ : Workshop) (acts : List Act) (P : Workshop → Prop) : Prop :=
  ∃ more w', AtWork config w₀ (acts ++ more) w' ∧ P w'

section

variable {config : Config} {w₀ w w' : Workshop} {acts : List Act} {act : Act} {c : Child}
  {id : WorkerId} {P Q : Workshop → Prop}

namespace MayReach

/-- What holds now may be reached. -/
theorem here (hwork : AtWork config w₀ acts w) (h : P w) : MayReach config w₀ acts P :=
  ⟨[], w, by rwa [List.append_nil], h⟩

/-- What may be reached after some acts may be reached. -/
theorem trans (h : MayReach config w₀ acts P)
    (hnext : ∀ more w', AtWork config w₀ (acts ++ more) w' → P w' →
      MayReach config w₀ (acts ++ more) Q) : MayReach config w₀ acts Q := by
  obtain ⟨more, w', hwork, hP⟩ := h
  obtain ⟨others, w'', hwork', hQ⟩ := hnext more w' hwork hP
  exact ⟨more ++ others, w'', by rwa [← List.append_assoc], hQ⟩

/-- What follows from what may be reached may be reached. -/
theorem imp (h : MayReach config w₀ acts P) (himp : ∀ w', P w' → Q w') :
    MayReach config w₀ acts Q := by
  obtain ⟨more, w', hwork, hP⟩ := h
  exact ⟨more, w', hwork, himp w' hP⟩

/-- What may be reached after an act may be reached. -/
theorem of_act (h : MayReach config w₀ (acts ++ [act]) P) : MayReach config w₀ acts P := by
  obtain ⟨more, w', hwork, hP⟩ := h
  exact ⟨act :: more, w', by rwa [List.append_cons], hP⟩

end MayReach

/-! ## One act more -/

/-- The child is alive. -/
private theorem AtWork.alive (h : AtWork config w₀ acts w)
    (hchild : w.supervisor.children.get? 1 = some c) : c.status = .running :=
  h.copies.alive _ _ c List.prefix_rfl h.supervisor hchild

/-- Whatever does not touch the child's life leaves it alive. -/
private theorem AtWork.alive_of_modify {f : Child → Child} (h : AtWork config w₀ acts w)
    (hf : ∀ c, (f c).status = c.status) (c' : Child)
    (hchild' : (w.supervisor.children.modify 1 f).get? 1 = some c') : c'.status = .running := by
  rw [Table.get?_modify, if_pos rfl] at hchild'
  obtain ⟨c, hchild, rfl⟩ := Option.map_eq_some_iff.mp hchild'
  rw [hf]
  exact h.alive hchild

/-- An act that is nothing to the supervisor is nothing to the child. -/
private theorem AtWork.ownAct (h : AtWork config w₀ acts w) (hstep : w.step act = some w')
    (hlabel : act.label? = none) : AtWork config w₀ (acts ++ [act]) w' := by
  refine ⟨h.codec, h.fresh, h.fits, run_concat_eq_some.mpr ⟨w, h.run, hstep⟩, ?_⟩
  rw [labelsOf_concat, hlabel, Option.toList_none, List.append_nil]
  exact h.copies

/-- The child goes on copying while a worker's call takes a step. -/
private theorem AtWork.callersAct {label : Label} (h : AtWork config w₀ acts w)
    (hstep : w.step (.inner label) = some w') (hown : label.caller? = some id)
    (hwritable : ∀ id cause, label ≠ .unwritten id cause)
    (hstatus : ∀ c, w'.supervisor.children.get? 1 = some c → c.status = .running) :
    AtWork config w₀ (acts ++ [.inner label]) w' := by
  refine ⟨h.codec, h.fresh, h.fits, run_concat_eq_some.mpr ⟨w, h.run, hstep⟩, ?_⟩
  have hsupervisor : w.supervisor.step label = some w'.supervisor := by
    simpa [Act.label?, Supervisor.run_cons] using (actStep_of_step hstep).supervisor
  rw [labelsOf_concat]
  exact h.copies.concat_of_caller h.supervisor hown hwritable hsupervisor hstatus

/-- The child can copy all that it was given, which changes nothing but its output. -/
private theorem AtWork.catchesUp (h : AtWork config w₀ acts w) :
    ∃ act w' c, AtWork config w₀ (acts ++ [act]) w' ∧ w'.workers = w.workers ∧
      w'.supervisor.callers = w.supervisor.callers ∧ w'.supervisor.children.get? 1 = some c ∧
      (w'.supervisor.given c).flatten <+: written (labelsOf (acts ++ [act])) 1 .out := by
  obtain ⟨c, hfaithful⟩ := h.faithful
  have hchild := hfaithful.child
  obtain ⟨hsight, -⟩ := Supervisor.paired_of_run (hfaithful.answers h)
    (serialized_of_run h.fresh h.run 1) List.prefix_rfl h.supervisor hchild
  obtain ⟨rest, hrest⟩ := h.copies.copied _ _ c List.prefix_rfl h.supervisor hchild
  let o := c.out.feed rest
  have hemit : w.supervisor.step (.emit 1 .out rest) =
      some (w.supervisor.modifyChild 1 (·.setOutlet .out o)) := by
    simp only [Supervisor.step, Supervisor.stepOutlet, hchild, hsight.decoding .out, if_true,
      Option.map_some]
    rfl
  have hchild' : (w.supervisor.modifyChild 1 (·.setOutlet .out o)).children.get? 1 =
      some (c.setOutlet .out o) := by
    simp only [Supervisor.modifyChild, Table.get?_modify, hchild]
    rfl
  have hgiven : (w.supervisor.modifyChild 1 (·.setOutlet .out o)).given (c.setOutlet .out o) =
      w.supervisor.given c := rfl
  have hbrings : (Label.emit 1 .out rest).brings 1 .out = rest := by simp [Label.brings]
  have hstep : w.step (.inner (.emit 1 .out rest)) =
      some (w.withSupervisor (w.supervisor.modifyChild 1 (·.setOutlet .out o))) := by
    simp only [step, hemit, Option.map_some]
  have hwork : AtWork config w₀ (acts ++ [.inner (.emit 1 .out rest)])
      (w.withSupervisor (w.supervisor.modifyChild 1 (·.setOutlet .out o))) := by
    refine ⟨h.codec, h.fresh, h.fits, run_concat_eq_some.mpr ⟨w, h.run, hstep⟩, ?_⟩
    rw [labelsOf_concat]
    refine h.copies.concat (Supervisor.run_concat_eq_some.mpr ⟨_, h.supervisor, hemit⟩) (by simp)
      (by simp) (by simp [Label.brings]) fun c' hthere ↦ ⟨?_, ?_⟩
    · exact h.alive_of_modify (f := (·.setOutlet .out o)) (fun _ ↦ rfl) c' hthere
    · obtain rfl := Option.some.inj (hchild'.symm.trans hthere)
      rw [hgiven, hbrings, hrest]
  refine ⟨_, _, _, hwork, rfl, rfl, hchild', ?_⟩
  rw [labelsOf_concat]
  change (Supervisor.given _ (c.setOutlet .out o)).flatten <+:
    written (labelsOf acts ++ [.emit 1 .out rest]) 1 .out
  rw [Supervisor.written_concat, hbrings, hrest]
  exact List.prefix_rfl

/-! ## An exchange -/

/-- The worker's call goes on with some reply. -/
private abbrev GoesOn (config : Config) (w₀ : Workshop) (acts : List Act) (id : WorkerId)
    (waiting finished : List Batch) (next : Reply → Dialogue (Batch × Tally)) : Prop :=
  MayReach config w₀ acts fun w ↦
    ∃ reply, w.workers.get? id = some ⟨waiting, some (next reply), finished⟩

section

variable {waiting finished : List Batch} {request : Request}
  {next : Reply → Dialogue (Batch × Tally)}

/-- A caller that waits, waits for an answer to the latest frame. -/
private theorem Faithful.answer_of_waiting {post : Caller} {lines : List Bytes} {n : Nat}
    (h : Faithful config w₀ w c)
    (hwaiting : Supervisor.Waiting (created config) (copiesOf config (w.supervisor.given c))
      (labelsOf acts) 1 c post lines n) :
    (w.supervisor.given c).length = n + 1 ∧
      ∃ frame, copiesOf config (w.supervisor.given c) n = .answer frame := by
  have hgiven : w.supervisor.given c = c.requests.reverse :=
    Supervisor.given_of_no_writer hwaiting.writer
  have hlength : (w.supervisor.given c).length = n + 1 := by
    rw [hgiven, List.length_reverse, hwaiting.latest]
  have hlast : (w.supervisor.given c)[n]? = some (w.supervisor.given c)[n] :=
    List.getElem?_eq_getElem (by omega)
  obtain ⟨token, hread⟩ := h.readable _ (List.mem_of_getElem? hlast)
  exact ⟨hlength, _, Supervisor.copiesOf_of_isRead hlast hread⟩

/-- A worker whose exchange is over takes its reply. -/
private theorem AtWork.goesOn_of_done {outcome : Supervisor.Outcome}
    (h : AtWork config w₀ acts w)
    (hworker : w.workers.get? id = some ⟨waiting, some (.ask request next), finished⟩)
    (hpost : w.supervisor.callers.get? id = some (.done outcome)) :
    GoesOn config w₀ acts id waiting finished next := by
  have hstep : w.step (.inner (.leave id)) = some
      { w with
        supervisor := { w.supervisor with callers := w.supervisor.callers.erase id }
        workers := w.workers.set id ⟨waiting, some (next outcome.reply), finished⟩ } := by
    simp only [step, hworker, hpost, Supervisor.step, Option.map_some]
  have hwork := h.callersAct hstep rfl (by simp) fun c hchild ↦ h.alive hchild
  exact .of_act (.here hwork ⟨_, Table.get?_set_self ..⟩)

/-- A worker takes its answer when all that the child was given has been copied. -/
private theorem AtWork.goesOn_of_copied (h : AtWork config w₀ acts w)
    (hworker : w.workers.get? id = some ⟨waiting, some (.ask request next), finished⟩)
    (hpost : w.supervisor.callers.get? id = some (.awaiting 1))
    (hchild : w.supervisor.children.get? 1 = some c)
    (hall : (w.supervisor.given c).flatten <+: written (labelsOf acts) 1 .out) :
    GoesOn config w₀ acts id waiting finished next := by
  obtain ⟨c', hfaithful⟩ := h.faithful
  obtain rfl := Option.some.inj (hchild.symm.trans hfaithful.child)
  have hanswers := hfaithful.answers h
  have hserial := serialized_of_run h.fresh h.run 1
  obtain ⟨hsight, hpaired⟩ :=
    Supervisor.paired_of_run hanswers hserial List.prefix_rfl h.supervisor hchild
  obtain ⟨n, hwaiting⟩ := hpaired.of_awaiting hserial hsight hpost
  obtain ⟨hlength, ⟨bytes, token⟩, hanswer⟩ := hfaithful.answer_of_waiting hwaiting
  have hwhole : Frame.wire (Supervisor.firstFrames (copiesOf config (w.supervisor.given c)) (n + 1)
      .out) <+: written (labelsOf acts) 1 .out := by
    rw [(Supervisor.firstFrames_copiesOf hfaithful.readable (Nat.le_of_eq hlength.symm)).1,
      ← hlength, List.take_length]
    exact hall
  have hqueue := hwaiting.queue_of_answer hsight hanswers hanswer hwhole
  have hstep : w.step (.inner (.receive id .out)) = some (w.withSupervisor
      ((w.supervisor.modifyChild 1 (·.setOutlet .out { c.out with queue := [] })).finish id
        (.answer token))) := by
    simp only [step, Supervisor.step, hpost, Option.bind_some, Supervisor.receiveToken, hchild,
      Child.outlet, Outlet.take?, hqueue, Option.map_some]
  have hwork := h.callersAct hstep rfl (by simp) (h.alive_of_modify fun c ↦ rfl)
  exact .of_act (hwork.goesOn_of_done hworker (Table.get?_set_self ..))

/-- A worker that waits for an answer gets it, as the child can copy what is missing. -/
private theorem AtWork.goesOn_of_awaiting (h : AtWork config w₀ acts w)
    (hworker : w.workers.get? id = some ⟨waiting, some (.ask request next), finished⟩)
    (hpost : w.supervisor.callers.get? id = some (.awaiting 1)) :
    GoesOn config w₀ acts id waiting finished next := by
  obtain ⟨act, w', c, hwork, hworkers, hcallers, hchild, hall⟩ := h.catchesUp
  rw [← hworkers] at hworker
  rw [← hcallers] at hpost
  exact .of_act (hwork.goesOn_of_copied hworker hpost hchild hall)

/-- A worker that writes its request has written it. -/
private theorem AtWork.goesOn_of_writing (h : AtWork config w₀ acts w)
    (hworker : w.workers.get? id = some ⟨waiting, some (.ask request next), finished⟩)
    {frame : Bytes} (hpost : w.supervisor.callers.get? id = some (.writing 1 frame)) :
    GoesOn config w₀ acts id waiting finished next := by
  have hstep : w.step (.inner (.written id)) = some (w.withSupervisor
      ((w.supervisor.modifyChild 1 fun c ↦
        { c with writer := none, requests := frame :: c.requests }).place id (.awaiting 1))) := by
    simp only [step, Supervisor.step, hpost, Option.bind_some, Supervisor.endWriting,
      Option.map_some]
  have hwork := h.callersAct hstep rfl (by simp) (h.alive_of_modify fun _ ↦ rfl)
  exact .of_act (hwork.goesOn_of_awaiting hworker (Table.get?_set_self ..))

/-- A worker that wants to write its request finds the child's input open and free. -/
private theorem AtWork.goesOn_of_entering (h : AtWork config w₀ acts w)
    (hworker : w.workers.get? id = some ⟨waiting, some (.ask request next), finished⟩)
    {frame : Bytes} (hpost : w.supervisor.callers.get? id = some (.entering 1 frame)) :
    GoesOn config w₀ acts id waiting finished next := by
  obtain ⟨c, hfaithful⟩ := h.faithful
  obtain ⟨-, shared, -, hmirrors⟩ := hfaithful.mirrors h
  have hmanned := manned_of_run h.fresh h.run
  have hfree : c.writer = none := by
    refine Option.eq_none_iff_forall_not_mem.mpr fun id' hwriter ↦ ?_
    obtain ⟨frame', hwriting⟩ := (hfaithful.scribe id').mp hwriter
    obtain rfl := hmanned.only hpost hwriting
    cases hpost.symm.trans hwriting
  have hstep : w.step (.inner (.proceed id)) = some (w.withSupervisor
      ((w.supervisor.modifyChild 1 ({ · with writer := some id })).place id
        (.writing 1 frame))) := by
    simp only [step, Supervisor.step, hpost, Option.bind_some, Supervisor.proceedCaller,
      hfaithful.child, hfree, Option.isSome_none, Bool.false_eq_true, if_false,
      hmirrors.steady.hasInput, if_true, Option.map_some]
  have hwork := h.callersAct hstep rfl (by simp) (h.alive_of_modify fun _ ↦ rfl)
  exact .of_act (hwork.goesOn_of_writing hworker (Table.get?_set_self ..))

/-- A worker that looks for the child finds it in the slot. -/
private theorem AtWork.goesOn_of_sending (h : AtWork config w₀ acts w)
    (hworker : w.workers.get? id = some ⟨waiting, some (.ask request next), finished⟩)
    {frame : Bytes} (hpost : w.supervisor.callers.get? id = some (.sending frame)) :
    GoesOn config w₀ acts id waiting finished next := by
  obtain ⟨c, hfaithful⟩ := h.faithful
  obtain ⟨-, shared, -, hmirrors⟩ := hfaithful.mirrors h
  have hstep : w.step (.inner (.proceed id)) = some (w.withSupervisor
      (w.supervisor.place id (.entering 1 frame))) := by
    simp only [step, Supervisor.step, hpost, Option.bind_some, Supervisor.proceedCaller,
      hmirrors.steady.lock, Option.isSome_none, Bool.false_eq_true, if_false,
      hmirrors.steady.handle, Option.map_some]
  have hwork := h.callersAct hstep rfl (by simp) fun c hchild ↦ h.alive hchild
  exact .of_act (hwork.goesOn_of_entering hworker (Table.get?_set_self ..))

/-- A worker that asks for something can call. -/
private theorem AtWork.goesOn_of_absent (h : AtWork config w₀ acts w)
    (hworker : w.workers.get? id = some ⟨waiting, some (.ask request next), finished⟩)
    (habsent : w.supervisor.callers.get? id = none) :
    GoesOn config w₀ acts id waiting finished next := by
  have hstep : w.step (.inner (.call id (.exchange request.frame))) = some (w.withSupervisor
      (w.supervisor.place id (.sending request.frame))) := by
    simp only [step, hworker, if_true, Supervisor.step, habsent, Option.map_some]
    rfl
  have hwork := h.callersAct hstep rfl (by simp) fun c hchild ↦ h.alive hchild
  exact .of_act (hwork.goesOn_of_sending hworker (Table.get?_set_self ..))

/-- Wherever a worker stands in an exchange, it can get a reply. -/
private theorem AtWork.goesOn (h : AtWork config w₀ acts w)
    (hworker : w.workers.get? id = some ⟨waiting, some (.ask request next), finished⟩) :
    GoesOn config w₀ acts id waiting finished next := by
  cases hpost : w.supervisor.callers.get? id with
  | none => exact h.goesOn_of_absent hworker hpost
  | some post =>
    obtain ⟨c, hfaithful⟩ := h.faithful
    obtain ⟨-, shared, -, hmirrors⟩ := hfaithful.mirrors h
    have hmanned := manned_of_run h.fresh h.run
    obtain ⟨_, _, _, _, -, ⟨hasks, -⟩ | ⟨hserves, -⟩⟩ :=
      hmirrors.dealing.of_caller hmanned hpost
    · cases hasks with
      | sending => exact h.goesOn_of_sending hworker hpost
      | entering => exact h.goesOn_of_entering hworker hpost
      | writing => exact h.goesOn_of_writing hworker hpost
    · cases hserves with
      | done => exact h.goesOn_of_done hworker hpost
      | waits hwaits _ =>
        cases hwaits with
        | awaiting => exact h.goesOn_of_awaiting hworker hpost
        | collecting hlines =>
          -- There are no lines, as the child writes no errors.
          have hanswers := hfaithful.answers h
          have hserial := serialized_of_run h.fresh h.run 1
          obtain ⟨hsight, hpaired⟩ := Supervisor.paired_of_run hanswers hserial List.prefix_rfl
            h.supervisor hfaithful.child
          obtain ⟨n, hwaiting⟩ := hpaired.of_collecting hserial hsight hpost
          obtain ⟨-, frame, hanswer⟩ := hfaithful.answer_of_waiting hwaiting
          cases hwaiting.awaiting_of_answer hsight hanswers hanswer

end

/-! ## Calls -/

/-- A worker that processes a batch can be done with it. -/
private theorem AtWork.returns {waiting finished : List Batch} {d : Dialogue (Batch × Tally)}
    (h : AtWork config w₀ acts w)
    (hworker : w.workers.get? id = some ⟨waiting, some d, finished⟩) :
    MayReach config w₀ acts fun w' ↦ w'.lock = none ∧
      ∃ batch, w'.workers.get? id = some ⟨waiting, none, batch :: finished⟩ := by
  induction d generalizing acts w with
  | done result =>
    obtain ⟨batch, tally⟩ := result
    have hstep : w.step (.putDown id) = some
        { w with
          lock := none, tally
          workers := w.workers.set id ⟨waiting, none, batch :: finished⟩ } := by
      simp only [step, hworker]
    exact .of_act (.here (h.ownAct hstep rfl) ⟨rfl, batch, Table.get?_set_self ..⟩)
  | ask request next ih =>
    refine (h.goesOn hworker).trans fun more w' hwork hnext ↦ ?_
    obtain ⟨reply, hworker'⟩ := hnext
    exact ih reply hwork hworker'

/-- Whoever has locked the stage can be done. -/
private theorem AtWork.unlocks (h : AtWork config w₀ acts w) :
    MayReach config w₀ acts fun w' ↦ w'.lock = none := by
  obtain ⟨c, hfaithful⟩ := h.faithful
  obtain ⟨ids, shared, hmoves, hmirrors⟩ := hfaithful.mirrors h
  obtain ⟨jobs, pending, horder⟩ := Shared.inOrder_of_moves rfl h.fresh.workers hmoves
  cases pending with
  | none => exact .here h (hmirrors.lock.symm.trans horder.lock)
  | some call =>
    obtain ⟨job, talk⟩ := call
    obtain ⟨⟨waiting, current, finished⟩, rest, hworker, hcurrent, -⟩ := horder.busy job talk rfl
    obtain rfl : current = some rest := hcurrent
    rw [hmirrors.workers] at hworker
    exact (h.returns hworker).imp fun w' hreturned ↦ hreturned.1

/-- A worker that waits for the stage can get all its batches back. -/
private theorem AtWork.finishes {waiting finished : List Batch} (h : AtWork config w₀ acts w)
    (hlock : w.lock = none) (hworker : w.workers.get? id = some ⟨waiting, none, finished⟩) :
    MayReach config w₀ acts fun w' ↦
      ∃ finished', w'.workers.get? id = some ⟨[], none, finished'⟩ := by
  induction waiting generalizing acts w finished with
  | nil => exact .here h ⟨finished, hworker⟩
  | cons batch waiting ih =>
    have hstep : w.step (.takeUp id) = some
        { w with
          lock := some id
          workers := w.workers.set id
            ⟨waiting, some (process w.supervisor.config batch w.tally), finished⟩ } := by
      simp only [step, hworker, hlock, Option.isSome_none, Bool.false_eq_true, if_false]
    refine .of_act (((h.ownAct hstep rfl).returns (Table.get?_set_self ..)).trans ?_)
    rintro more w' hwork ⟨hfree, result, hworker'⟩
    exact ih hwork hfree hworker'

/-- A worker is still there, and is on course. -/
private theorem Faithful.exists_worker {worker : Worker} (h : Faithful config w₀ w c)
    (hbefore : w₀.workers.get? id = some worker) :
    ∃ worker', w.workers.get? id = some worker' ∧ OnCourse config worker worker' := by
  have hrel := h.workers id
  rw [hbefore] at hrel
  cases hworker : w.workers.get? id with
  | none =>
    rw [hworker] at hrel
    cases hrel
  | some worker' =>
    rw [hworker] at hrel
    cases hrel with
    | some hcourse => exact ⟨worker', rfl, hcourse⟩

/-- A worker has got back copies of its first batches, and of all when it has nothing left to do. -/
private theorem Faithful.results {worker : Worker} (h : Faithful config w₀ w c)
    (hbefore : w₀.workers.get? id = some worker) :
    ∃ past rest, worker.waiting = past ++ rest ∧ w.results id = past.map (copied config) ∧
      ∀ finished, w.workers.get? id = some ⟨[], none, finished⟩ → rest = [] := by
  obtain ⟨worker', hworker, hcourse⟩ := h.exists_worker hbefore
  rw [Workshop.results, hworker]
  cases hcourse with
  | idle hbatches hfinished =>
    refine ⟨_, _, hbatches, hfinished, fun finished heq ↦ ?_⟩
    cases heq
    rfl
  | busy hbatches hfinished _ => exact ⟨_, _, hbatches, hfinished, fun finished heq ↦ by cases heq⟩

/-- A worker can get back copies of all its batches. -/
private theorem AtWork.allBack {worker : Worker} (h : AtWork config w₀ acts w)
    (hbefore : w₀.workers.get? id = some worker) :
    MayReach config w₀ acts fun w' ↦ w'.results id = worker.waiting.map (copied config) := by
  refine h.unlocks.trans fun more w' hwork hlock ↦ ?_
  obtain ⟨c, hfaithful⟩ := hwork.faithful
  obtain ⟨⟨waiting, current, finished⟩, hworker, -⟩ := hfaithful.exists_worker hbefore
  have hmanned := manned_of_run hwork.fresh hwork.run
  cases current with
  | some d => cases (hmanned.held id _ hworker (Option.some_ne_none _)).symm.trans hlock
  | none =>
    refine (hwork.finishes hlock hworker).trans fun more' w'' hwork' hdone ↦ ?_
    obtain ⟨finished', hworker'⟩ := hdone
    obtain ⟨c', hfaithful'⟩ := hwork'.faithful
    obtain ⟨past, rest, hbatches, hresults, hall⟩ := hfaithful'.results hbefore
    refine .here hwork' ?_
    rw [hbatches, hall finished' hworker', List.append_nil, hresults]

end

/-- Where a child copies its input to its output, every call to process a batch whose requests fit the
buffer can return, and it returns the batch with the same parts in the same order and no new failure:
sized payloads are as they were, and lines have lost a carriage return before each newline and at the
end, one for each visit. -/
theorem process_returns_copies {config : Config} {launch : Supervisor.Launch}
    {equip : Supervisor.Equip} {wardenFault : Option IoFault} {s : Supervisor}
    {workers : Table WorkerId Worker} {acts : List Act} {w : Workshop}
    (hcreate : Supervisor.create config launch equip wardenFault = .ok s)
    (hcodec : config.codecRecv = config.codecSend)
    (hfresh : ∀ id worker, workers.get? id = some worker → worker = .fresh worker.waiting)
    (hfits : ∀ id worker, workers.get? id = some worker → ∀ batch ∈ worker.waiting,
      Fits config batch)
    (hrun : (⟨s, {}, none, workers⟩ : Workshop).run acts = some w)
    (hcopies : Copies s (labelsOf acts) 1) :
    ∀ id worker, workers.get? id = some worker →
      (∃ past rest, worker.waiting = past ++ rest ∧ w.results id = past.map (copied config)) ∧
      (∃ more w', w.run more = some w' ∧ Copies s (labelsOf (acts ++ more)) 1 ∧
        w'.results id = worker.waiting.map (copied config)) ∧
      ∀ batch ∈ worker.waiting, ComesBack config batch (copied config batch) := by
  obtain rfl := Supervisor.create_eq_ok hcreate
  intro id worker hworker
  have hwork : AtWork config ⟨created config, {}, none, workers⟩ acts w :=
    ⟨hcodec, ⟨rfl, rfl, rfl, hfresh⟩, hfits, hrun, hcopies⟩
  obtain ⟨c, hfaithful⟩ := hwork.faithful
  obtain ⟨past, rest, hbatches, hresults, -⟩ := hfaithful.results hworker
  obtain ⟨more, w', hwork', hall⟩ := hwork.allBack hworker
  have hmore : w.run more = some w' := by
    have hrun' := hwork'.run
    rwa [run, List.foldlM_append, show List.foldlM step _ acts = some w from hrun] at hrun'
  exact ⟨⟨past, rest, hbatches, hresults⟩, ⟨more, w', hmore, hwork'.copies, hall⟩,
    fun batch _ ↦ comesBack_copied config batch⟩

/-- A batch of two parts, and a selection that names the first of them twice. -/
private def repeated : Batch := .ofPayloads [[0x61, 0x0d, 0x0d, 0x0a], [0x62, 0x0d]]

private def bothEnds : Config := { parts := [0, -2] }

private def echo : Workshop := ⟨created bothEnds, {}, none, Table.empty.set 0 (.fresh [repeated])⟩

/-- The first part is sent, and what comes back of it is sent again. The child begins to copy before
it has been given a whole frame. -/
private def echoActs : List Act :=
  [.takeUp 0, .inner (.call 0 (.exchange [0x61, 0x0d, 0x0d, 0x0a])), .inner (.proceed 0),
    .inner .warden, .inner (.proceed 0), .inner (.emit 1 .out [0x61]), .inner (.written 0),
    .inner (.emit 1 .out [0x0d, 0x0d, 0x0a]), .inner (.receive 0 .out), .inner (.leave 0),
    .inner (.call 0 (.exchange [0x61, 0x0d, 0x0a])), .inner (.proceed 0), .inner (.proceed 0),
    .inner (.written 0), .inner (.emit 1 .out [0x61, 0x0d, 0x0a]), .inner (.receive 0 .out),
    .inner (.leave 0), .putDown 0]

private theorem eq_of_echo {id : WorkerId} {worker : Worker}
    (h : echo.workers.get? id = some worker) : worker = .fresh [repeated] := by
  simp only [echo, Table.get?_set, Table.get?_empty] at h
  split at h
  · exact (Option.some.inj h).symm
  · cases h

private theorem copies_echoActs : Copies (created bothEnds) (labelsOf echoActs) 1 :=
  Supervisor.copies_of_holdsAlong (fun stream ↦ by cases stream <;> decide)
    (fun id cause ↦ by simp [labelsOf, echoActs, Act.label?]) (by decide) (by decide +kernel)

/-- A part that is visited twice loses two carriage returns and keeps its newline. -/
theorem process_returns_copies_of_repeated :
    Fits bothEnds repeated ∧ Copies (created bothEnds) (labelsOf echoActs) 1 ∧
      ∃ w, echo.run echoActs = some w ∧
        w.results 0 = [⟨[⟨[0x61, 0x0a], none⟩, ⟨[0x62, 0x0d], none⟩]⟩] ∧
        (∃ past rest, [repeated] = past ++ rest ∧ w.results 0 = past.map (copied bothEnds)) ∧
        ComesBack bothEnds repeated (copied bothEnds repeated) := by
  have hfits : Fits bothEnds repeated := by decide
  have hresults : (echo.run echoActs).map (·.results 0) =
      some [⟨[⟨[0x61, 0x0a], none⟩, ⟨[0x62, 0x0d], none⟩]⟩] := by
    decide +kernel
  obtain ⟨w, hrun, hback⟩ := Option.map_eq_some_iff.mp hresults
  have hcreate : Supervisor.create bothEnds .launched .equipped none = .ok (created bothEnds) := rfl
  have hboth := process_returns_copies hcreate rfl
    (fun id worker hworker ↦ by rw [eq_of_echo hworker]; rfl)
    (fun id worker hworker batch hbatch ↦ by
      rw [eq_of_echo hworker] at hbatch
      exact List.mem_singleton.mp hbatch ▸ hfits)
    hrun copies_echoActs 0 (.fresh [repeated]) rfl
  exact ⟨hfits, copies_echoActs, w, hrun, hback, hboth.1, hboth.2.2 repeated List.mem_cons_self⟩

end Workshop

end Sidecar.Stage
