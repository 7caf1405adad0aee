import Sidecar.Proofs.Stage.Copied
import Sidecar.Proofs.Stage.InTurn

/-!
# Stages with a child that copies

Whether a child's copies are answers depends on the requests, and the requests of a worker depend on
the answers so far. So both are shown together, act by act: as long as all frames that the child was
given can be read, every worker gets copies (`OnCourse`), and while every worker does, it asks only
for what can be read (`faithful`).
-/

namespace Sidecar.Stage

open Supervisor (Label Caller Child Serves Answers Scribe Readable Copies created copiesOf)

namespace Workshop

/-- Workers that had batches whose requests can be sent have done something at a stage whose child
copies. -/
structure AtWork (config : Config) (w₀ : Workshop) (acts : List Act) (w : Workshop) : Prop where
  codec : config.codecRecv = config.codecSend
  fresh : Fresh w₀ config
  fits : ∀ id worker, w₀.workers.get? id = some worker → ∀ batch ∈ worker.waiting,
    Fits config batch
  run : w₀.run acts = some w
  copies : Copies (created config) (labelsOf acts) 1

/-- A worker that had some batches has got back copies of the first of them, and is about to get one
of the next. -/
inductive OnCourse (config : Config) (worker₀ : Worker) : Worker → Prop where
  | idle {past waiting finished : List Batch} (hbatches : worker₀.waiting = past ++ waiting)
      (hfinished : finished.reverse = past.map (copied config)) :
      OnCourse config worker₀ ⟨waiting, none, finished⟩
  | busy {past waiting finished : List Batch} {batch : Batch} {d : Dialogue (Batch × Tally)}
      (hbatches : worker₀.waiting = past ++ batch :: waiting)
      (hfinished : finished.reverse = past.map (copied config))
      (hd : Copying config (·.1 = copied config batch) d) :
      OnCourse config worker₀ ⟨waiting, some d, finished⟩

/-- All workers are on course, and all frames that the child was given can be read. -/
structure Faithful (config : Config) (w₀ w : Workshop) (c : Child) : Prop where
  child : w.supervisor.children.get? 1 = some c
  scribe : Scribe w.supervisor 1 c
  readable : ∀ bytes ∈ w.supervisor.given c, Readable config bytes
  workers : ∀ id, Option.Rel (OnCourse config) (w₀.workers.get? id) (w.workers.get? id)

section

variable {config : Config} {w₀ w w' : Workshop} {acts : List Act} {act : Act} {c : Child}
  {id : WorkerId}

/-- The supervisor makes a run of its own. -/
theorem AtWork.supervisor (h : AtWork config w₀ acts w) :
    (created config).run (labelsOf acts) = some w.supervisor := by
  rw [← h.fresh.supervisor]
  exact supervisor_of_run h.run

namespace Faithful

/-- The child's copies are answers. -/
theorem answers (h : Faithful config w₀ w c) (hwork : AtWork config w₀ acts w) :
    Answers (created config) (labelsOf acts) 1 (copiesOf config (w.supervisor.given c)) :=
  Supervisor.answers_of_copies hwork.copies hwork.supervisor h.child h.readable

/-- So the workers behave as if they asked one peer for them. -/
theorem mirrors (h : Faithful config w₀ w c) (hwork : AtWork config w₀ acts w) :
    ∃ ids shared,
      (⟨config, answering (copiesOf config (w.supervisor.given c)), [], {}, none, w₀.workers⟩ :
        Shared _).moves ids = some shared ∧
      Mirrors config (copiesOf config (w.supervisor.given c)) w shared c := by
  obtain ⟨ids, shared, c', hmoves, hmirrors⟩ :=
    mirrors_of_run hwork.fresh hwork.run (h.answers hwork) hwork.copies.writable
  obtain rfl := Option.some.inj (h.child.symm.trans hmirrors.child)
  exact ⟨ids, shared, hmoves, hmirrors⟩

/-- A worker is on course. -/
theorem onCourse {worker : Worker} (h : Faithful config w₀ w c)
    (hworker : w.workers.get? id = some worker) :
    ∃ worker₀, w₀.workers.get? id = some worker₀ ∧ OnCourse config worker₀ worker := by
  have hrel := h.workers id
  rw [hworker] at hrel
  cases hbefore : w₀.workers.get? id with
  | none =>
    rw [hbefore] at hrel
    cases hrel
  | some worker₀ =>
    rw [hbefore] at hrel
    cases hrel with
    | some hcourse => exact ⟨worker₀, rfl, hcourse⟩

/-- When a worker goes on and stays on course, all workers do. -/
private theorem set {worker worker' : Worker} (h : Faithful config w₀ w c)
    (hworker : w.workers.get? id = some worker)
    (hcourse : ∀ worker₀, w₀.workers.get? id = some worker₀ → OnCourse config worker₀ worker →
      OnCourse config worker₀ worker') (id' : WorkerId) :
    Option.Rel (OnCourse config) (w₀.workers.get? id') ((w.workers.set id worker').get? id') := by
  rw [Table.get?_set]
  split
  · next heq =>
    subst heq
    obtain ⟨worker₀, hbefore, hon⟩ := h.onCourse hworker
    rw [hbefore]
    exact .some (hcourse worker₀ hbefore hon)
  · exact h.workers id'

/-- What a worker asks for can be read. -/
private theorem readable_of_ask {worker₀ : Worker} {waiting finished : List Batch}
    {request : Request} {next : Reply → Dialogue (Batch × Tally)}
    (h : OnCourse config worker₀ ⟨waiting, some (.ask request next), finished⟩) :
    Readable config request.frame := by
  cases h with
  | busy _ _ hd =>
    cases hd with
    | ask hasks _ => exact hasks

/-- A frame that a caller is about to write can be read. -/
private theorem readable_of_entering {frame : Bytes} (h : Faithful config w₀ w c)
    (hwork : AtWork config w₀ acts w)
    (hpost : w.supervisor.callers.get? id = some (.entering 1 frame)) : Readable config frame := by
  obtain ⟨-, shared, -, hmirrors⟩ := h.mirrors hwork
  have hmanned := manned_of_run hwork.fresh hwork.run
  obtain ⟨_, request, _, _, hworker, ⟨hasks, -⟩ | ⟨hserves, -⟩⟩ :=
    hmirrors.dealing.of_caller hmanned hpost
  · cases hasks
    obtain ⟨worker₀, -, hcourse⟩ := h.onCourse hworker
    exact readable_of_ask hcourse
  · cases hserves with
    | waits hwaits _ => cases hwaits

/-- What a worker gets is a copy of its request. -/
private theorem echoes_of_done {waiting finished : List Batch} {request : Request}
    {next : Reply → Dialogue (Batch × Tally)} {outcome : Supervisor.Outcome}
    (h : Faithful config w₀ w c) (hwork : AtWork config w₀ acts w)
    (hworker : w.workers.get? id = some ⟨waiting, some (.ask request next), finished⟩)
    (hpost : w.supervisor.callers.get? id = some (.done outcome)) :
    Echoes config request outcome.reply := by
  obtain ⟨-, shared, -, hmirrors⟩ := h.mirrors hwork
  have hmanned := manned_of_run hwork.fresh hwork.run
  obtain ⟨_, _, _, _, hworker', ⟨hasks, -⟩ | ⟨hserves, hrequests⟩⟩ :=
    hmirrors.dealing.of_caller hmanned hpost
  · cases hasks
  · cases hworker.symm.trans hworker'
    cases hserves with
    | waits hwaits _ => cases hwaits
    | done =>
      -- The request is the latest one that was written, and its copy is the reply.
      have hgiven : (w.supervisor.given c)[shared.state.length]? = some request.frame := by
        rw [Supervisor.given, hrequests, List.reverse_cons, List.reverse_reverse,
          List.append_assoc, List.getElem?_append_right (Nat.le_refl _), Nat.sub_self]
        rfl
      obtain ⟨worker₀, -, hcourse⟩ := h.onCourse hworker
      obtain ⟨token, hread⟩ := readable_of_ask hcourse
      rw [Supervisor.copiesOf_of_isRead hgiven hread]
      exact ⟨token, hread, rfl⟩

/-- A step of the supervisor gives the child only what can be read. -/
private theorem readable_of_step {label : Label} {v : Supervisor} {c' : Child}
    (h : Faithful config w₀ w c) (hwork : AtWork config w₀ acts w)
    (hwritable : ∀ id cause, label ≠ .unwritten id cause)
    (hstep : w.supervisor.step label = some v) (hchild' : v.children.get? 1 = some c') :
    Scribe v 1 c' ∧ ∀ bytes ∈ v.given c', Readable config bytes := by
  have hreach := (Supervisor.reachable_created config).run hwork.supervisor
  obtain ⟨hscribe, hgiven⟩ :=
    Supervisor.given_of_step hreach h.scribe h.child hstep hchild' hwritable
  refine ⟨hscribe, ?_⟩
  obtain hsame | ⟨id, frame, hpost, hmore⟩ := hgiven
  · rw [hsame]
    exact h.readable
  · rw [hmore]
    intro bytes hbytes
    obtain hbefore | hlast := List.mem_append.mp hbytes
    · exact h.readable bytes hbefore
    · rw [List.mem_singleton.mp hlast]
      exact h.readable_of_entering hwork hpost

/-- Every act keeps all workers on course. -/
private theorem workers_of_actStep (h : Faithful config w₀ w c) (hwork : AtWork config w₀ acts w)
    (hact : ActStep w act w') (id : WorkerId) :
    Option.Rel (OnCourse config) (w₀.workers.get? id) (w'.workers.get? id) := by
  have hconfig : w.supervisor.config = config := Supervisor.config_of_run hwork.supervisor
  cases hact with
  | @takenUp _ batch _ _ hworker hlock =>
    refine h.set hworker (fun worker₀ hbefore hcourse ↦ ?_) id
    cases hcourse with
    | idle hbatches hfinished =>
      have hfits : Fits config batch := hwork.fits _ worker₀ hbefore batch (by simp [hbatches])
      rw [hconfig]
      exact .busy hbatches hfinished (process_meets hwork.codec hfits w.tally)
  | @putDown _ _ _ waiting _ hworker =>
    refine h.set hworker (fun worker₀ hbefore hcourse ↦ ?_) id
    cases hcourse with
    | @busy past _ _ batch _ hbatches hfinished hd =>
      cases hd with
      | done hbatch =>
        obtain rfl := hbatch
        have hbatches' : worker₀.waiting = (past ++ [batch]) ++ waiting := by
          rw [hbatches, List.append_assoc]
          rfl
        exact .idle hbatches' (by simp [hfinished])
  | called => exact h.workers id
  | replied hworker hpost hstep =>
    refine h.set hworker (fun worker₀ hbefore hcourse ↦ ?_) id
    cases hcourse with
    | busy hbatches hfinished hd =>
      cases hd with
      | ask _ hnext =>
        exact .busy hbatches hfinished (hnext _ (h.echoes_of_done hwork hworker hpost))
  | aside => exact h.workers id

/-- An act under which the child goes on copying keeps all this. -/
theorem step (h : Faithful config w₀ w c) (hwork : AtWork config w₀ acts w)
    (hcopies : Copies (created config) (labelsOf (acts ++ [act])) 1) (hact : ActStep w act w') :
    ∃ c', Faithful config w₀ w' c' := by
  have hworkers := h.workers_of_actStep hwork hact
  cases hlabel : act.label? with
  | none =>
    have hsame : w.supervisor = w'.supervisor := by simpa [hlabel] using hact.supervisor
    exact ⟨c, hsame ▸ h.child, hsame ▸ h.scribe, hsame ▸ h.readable, hworkers⟩
  | some label =>
    have hstep : w.supervisor.step label = some w'.supervisor := by
      simpa [hlabel, Supervisor.run_cons] using hact.supervisor
    have hreach := (Supervisor.reachable_created config).run hwork.supervisor
    obtain ⟨c', hchild', -⟩ :=
      Supervisor.touch_of_step hstep (hreach.le_of_child h.child) h.child
    have hwritable : ∀ id cause, label ≠ .unwritten id cause := by
      rintro id cause rfl
      refine hcopies.writable id cause ?_
      rw [labelsOf_concat, hlabel]
      simp
    obtain ⟨hscribe, hreadable⟩ := h.readable_of_step hwork hwritable hstep hchild'
    exact ⟨c', hchild', hscribe, hreadable, hworkers⟩

end Faithful

/-- Before anybody has done anything, all is well. -/
private theorem faithful_of_fresh (hfresh : Fresh w₀ config) :
    Faithful config w₀ w₀ (.fresh config false) := by
  have hchild : w₀.supervisor.children.get? 1 = some (.fresh config false) := by
    rw [hfresh.supervisor]
    exact Table.get?_set_self ..
  have hscribe : Scribe w₀.supervisor 1 (.fresh config false) := by
    have hrun : (created config).run [] = some (created config) := rfl
    obtain ⟨c, hchild', hscribe⟩ := Supervisor.scribe_of_run hrun (by simp)
    rw [hfresh.supervisor] at hchild ⊢
    obtain rfl := Option.some.inj (hchild.symm.trans hchild')
    exact hscribe
  refine ⟨hchild, hscribe, ?_, fun id ↦ ?_⟩
  · rw [Supervisor.given_of_no_writer rfl]
    exact fun bytes hbytes ↦ absurd hbytes List.not_mem_nil
  · cases hworker : w₀.workers.get? id with
    | none => exact .none
    | some worker =>
      have hidle := hfresh.workers id worker hworker
      refine .some ?_
      rw [hidle]
      have hbatches : worker.waiting = [] ++ worker.waiting := rfl
      exact .idle hbatches rfl

/-- At every time all workers are on course. -/
theorem AtWork.faithful (h : AtWork config w₀ acts w) : ∃ c, Faithful config w₀ w c := by
  obtain ⟨hcodec, hfresh, hfits, hrun, hcopies⟩ := h
  refine run_induction (P := fun acts w ↦ Copies (created config) (labelsOf acts) 1 →
    ∃ c, Faithful config w₀ w c) (fun _ ↦ ⟨_, faithful_of_fresh hfresh⟩)
    (fun past act t u hpast ih hact hcopies ↦ ?_) hrun hcopies
  have hbefore : Copies (created config) (labelsOf past) 1 := by
    rw [labelsOf_concat] at hcopies
    exact hcopies.of_prefix (List.prefix_append _ _)
  obtain ⟨c, hfaithful⟩ := ih hbefore
  exact hfaithful.step ⟨hcodec, hfresh, hfits, hpast, hbefore⟩ hcopies hact

end

end Workshop

end Sidecar.Stage
