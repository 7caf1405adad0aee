import Mathlib.Data.List.Induction
import Sidecar.Proofs.Stage.Dialogue
import Sidecar.Stage.Shared

/-!
# Calls to a shared stage take turns

However workers are moved, their calls to a stage can be put in a row: every call that has returned
came to what it comes to when the calls are made one after the other in that order (`inTurn`), and
at most one call has begun and not returned. `InOrder` says so of one state, every move of a worker
keeps it (`InOrder.step`), and so it holds after all moves (`inOrder_of_moves`).
-/

namespace Sidecar.Stage

/-- A call to a stage: a worker and the batch that it has processed. -/
structure Job where
  worker : WorkerId
  batch : Batch
  deriving DecidableEq

/-- A call that has returned, with what was asked and replied in it. -/
structure Entry where
  job : Job
  talk : List (Request × Reply)
  result : Batch
  deriving DecidableEq

/-- Calls that are made one after the other. -/
def inTurn {σ : Type} (config : Config) (peer : Request → σ → Reply × σ) :
    List Job → Tally → σ → List Entry × Tally × σ
  | [], tally, state => ([], tally, state)
  | job :: rest, tally, state =>
    let dialogue := process config job.batch tally
    let ((result, tally), last) := dialogue.run peer state
    let (entries, ends) := inTurn config peer rest tally last
    (⟨job, dialogue.transcript peer state, result⟩ :: entries, ends)

/-- The batches of a worker among those of some calls. -/
def batchesOf (id : WorkerId) (jobs : List Job) : List Batch :=
  (jobs.filter (·.worker = id)).map (·.batch)

/-- What a worker has got back from some calls. -/
def resultsOf (id : WorkerId) (entries : List Entry) : List Batch :=
  (entries.filter (·.job.worker = id)).map (·.result)

namespace Shared

/-- What follows when workers are moved in some order, if all of them can be. -/
def moves {σ : Type} (s : Shared σ) (ids : List WorkerId) : Option (Shared σ) := ids.foldlM step s

/-- What a move of a worker does. -/
inductive Moved {σ : Type} (s : Shared σ) (id : WorkerId) : Shared σ → Prop where
  /-- It locks the stage for a batch. -/
  | takenUp {batch : Batch} {waiting finished : List Batch}
      (hworker : s.workers.get? id = some ⟨batch :: waiting, none, finished⟩)
      (hlock : s.lock = none) :
      Moved s id
        { s with
          lock := some id
          workers := s.workers.set id
            ⟨waiting, some (process s.config batch s.tally), finished⟩ }
  /-- It makes a request. -/
  | asked {request : Request} {next : Reply → Dialogue (Batch × Tally)}
      {waiting finished : List Batch}
      (hworker : s.workers.get? id = some ⟨waiting, some (.ask request next), finished⟩) :
      Moved s id
        { s with
          state := (s.peer request s.state).2
          workers := s.workers.set id
            ⟨waiting, some (next (s.peer request s.state).1), finished⟩ }
  /-- It is done with its batch. -/
  | putDown {batch : Batch} {tally : Tally} {waiting finished : List Batch}
      (hworker : s.workers.get? id = some ⟨waiting, some (.done (batch, tally)), finished⟩) :
      Moved s id
        { s with
          lock := none, tally, workers := s.workers.set id ⟨waiting, none, batch :: finished⟩ }

section

variable {σ : Type} {s t : Shared σ} {id : WorkerId} {ids : List WorkerId}

/-- Every move is one of these. -/
theorem step_eq_some_iff : s.step id = some t ↔ Moved s id t := by
  constructor
  · intro h
    unfold step at h
    split at h
    · cases h
    · next worker hworker =>
      obtain ⟨waiting, current, finished⟩ := worker
      simp only at h
      split at h
      · cases h
        exact .asked hworker
      · cases h
        exact .putDown hworker
      · cases h
      · split at h
        · cases h
        · next hlock =>
          cases h
          exact .takenUp hworker (by simpa using hlock)
  · intro h
    cases h with
    | takenUp hworker hlock => simp [step, hworker, hlock]
    | asked hworker => simp [step, hworker]
    | putDown hworker => simp [step, hworker]

/-- Moves are some moves and a last one. -/
theorem moves_concat : s.moves (ids ++ [id]) = (s.moves ids).bind (·.step id) := by
  rw [moves, List.foldlM_append]
  cases h : s.moves ids with
  | none => rw [show ids.foldlM step s = none from h]; rfl
  | some t =>
    rw [show ids.foldlM step s = some t from h]
    simp only [Option.bind_eq_bind, Option.bind_some, List.foldlM_cons, List.foldlM_nil]
    cases t.step id <;> rfl

end

/-- What calls come to that are made one after the other, from where a shared stage stands. -/
def after {σ : Type} (s : Shared σ) (jobs : List Job) : List Entry × Tally × σ :=
  inTurn s.config s.peer jobs s.tally s.state

/-- The calls to a shared stage in a row: those that have returned, and one that has begun and has
come somewhere. -/
structure InOrder {σ : Type} (s₀ s : Shared σ) (jobs : List Job)
    (pending : Option (Job × List (Request × Reply))) : Prop where
  config : s.config = s₀.config
  peer : s.peer = s₀.peer
  lock : s.lock = pending.map (·.1.worker)
  tally : s.tally = (s₀.after jobs).2.1
  /-- Who processes a batch has locked the stage. -/
  held : ∀ id w, s.workers.get? id = some w → w.current ≠ none → s.lock = some id
  /-- A worker has got back what its calls come to, and waits with the rest of its batches. -/
  workers : ∀ id w₀, s₀.workers.get? id = some w₀ → ∃ w, s.workers.get? id = some w ∧
    w₀.waiting = batchesOf id (jobs ++ pending.toList.map (·.1)) ++ w.waiting ∧
    w.finished.reverse = resultsOf id (s₀.after jobs).1
  /-- Between calls the peer is where the last one left it. -/
  idle : pending = none → s.state = (s₀.after jobs).2.2
  /-- A call that has begun is on its way. -/
  busy : ∀ job talk, pending = some (job, talk) → ∃ w rest,
    s.workers.get? job.worker = some w ∧ w.current = some rest ∧
      (process s₀.config job.batch (s₀.after jobs).2.1).Leads s₀.peer (s₀.after jobs).2.2 talk rest
        s.state

section

variable {σ : Type} {s₀ s t : Shared σ} {id : WorkerId} {ids : List WorkerId} {jobs : List Job}
  {pending : Option (Job × List (Request × Reply))}

/-- One call more. -/
theorem after_concat (s : Shared σ) (jobs : List Job) (job : Job) :
    s.after (jobs ++ [job]) =
      let (entries, tally, state) := s.after jobs
      let dialogue := process s.config job.batch tally
      (entries ++ [⟨job, dialogue.transcript s.peer state, (dialogue.run s.peer state).1.1⟩],
        (dialogue.run s.peer state).1.2, (dialogue.run s.peer state).2) := by
  simp only [after]
  generalize s.tally = tally
  generalize s.state = state
  induction jobs generalizing tally state with
  | nil => rfl
  | cons first jobs ih =>
    simp only [List.cons_append, inTurn, ih]

/-- Another worker's batch is none of a worker's. -/
theorem batchesOf_concat (id : WorkerId) (jobs : List Job) (job : Job) :
    batchesOf id (jobs ++ [job]) =
      batchesOf id jobs ++ if job.worker = id then [job.batch] else [] := by
  simp only [batchesOf, List.filter_append, List.map_append]
  congr 1
  by_cases h : job.worker = id <;> simp [h]

/-- Another worker's result is none of a worker's. -/
theorem resultsOf_concat (id : WorkerId) (entries : List Entry) (entry : Entry) :
    resultsOf id (entries ++ [entry]) =
      resultsOf id entries ++ if entry.job.worker = id then [entry.result] else [] := by
  simp only [resultsOf, List.filter_append, List.map_append]
  congr 1
  by_cases h : entry.job.worker = id <;> simp [h]

namespace InOrder

/-- A worker locks the stage: one more call has begun. -/
private theorem takeUp {batch : Batch} {waiting finished : List Batch}
    (h : InOrder s₀ s jobs none)
    (hworker : s.workers.get? id = some ⟨batch :: waiting, none, finished⟩) :
    InOrder s₀
      { s with
        lock := some id
        workers := s.workers.set id ⟨waiting, some (process s.config batch s.tally), finished⟩ }
      jobs (some (⟨id, batch⟩, [])) := by
  refine ⟨h.config, h.peer, rfl, h.tally, fun id' w hw hcurrent ↦ ?_, fun id' w₀ hw₀ ↦ ?_, by simp,
    ?_⟩
  · rcases Table.get?_set_eq_some_iff.mp hw with ⟨rfl, -⟩ | ⟨-, hw⟩
    · rfl
    · cases (h.held id' w hw hcurrent).symm.trans h.lock
  · obtain ⟨w, hw, hwaiting, hfinished⟩ := h.workers id' w₀ hw₀
    simp only [Option.toList_none, List.map_nil, List.append_nil] at hwaiting
    simp only [Option.toList_some, List.map_cons, List.map_nil, batchesOf_concat]
    by_cases hid : id = id'
    · subst hid
      obtain rfl := Option.some.inj (hworker.symm.trans hw)
      exact ⟨_, Table.get?_set_self .., by simp [hwaiting], hfinished⟩
    · exact ⟨w, (Table.get?_set_of_ne _ _ hid).trans hw, by simp [hwaiting, hid], hfinished⟩
  · intro job talk heq
    cases heq
    refine ⟨_, _, Table.get?_set_self .., rfl, ?_⟩
    rw [h.config, h.tally, ← h.idle rfl]
    exact .start

/-- A worker that processes a batch is the one whose call has begun. -/
theorem pending_of_current {w : Worker} (h : InOrder s₀ s jobs pending)
    (hworker : s.workers.get? id = some w) {rest : Dialogue (Batch × Tally)}
    (hcurrent : w.current = some rest) :
    ∃ batch talk, pending = some (⟨id, batch⟩, talk) ∧
      (process s₀.config batch (s₀.after jobs).2.1).Leads s₀.peer (s₀.after jobs).2.2 talk rest
        s.state := by
  have hlock := h.held id w hworker (by simp [hcurrent])
  rw [h.lock] at hlock
  obtain ⟨⟨⟨_, batch⟩, talk⟩, rfl, rfl⟩ := Option.map_eq_some_iff.mp hlock
  obtain ⟨w', rest', hworker', hcurrent', hleads⟩ := h.busy _ _ rfl
  obtain rfl := Option.some.inj (hworker.symm.trans hworker')
  obtain rfl := Option.some.inj (hcurrent.symm.trans hcurrent')
  exact ⟨batch, talk, rfl, hleads⟩

/-- A worker makes a request: its call goes on. -/
private theorem ask {request : Request} {next : Reply → Dialogue (Batch × Tally)}
    {waiting finished : List Batch} (h : InOrder s₀ s jobs pending)
    (hworker : s.workers.get? id = some ⟨waiting, some (.ask request next), finished⟩) :
    ∃ pending', InOrder s₀
      { s with
        state := (s.peer request s.state).2
        workers := s.workers.set id ⟨waiting, some (next (s.peer request s.state).1), finished⟩ }
      jobs pending' := by
  obtain ⟨batch, talk, rfl, hleads⟩ := h.pending_of_current hworker rfl
  refine ⟨some (⟨id, batch⟩, talk ++ [(request, (s.peer request s.state).1)]), h.config, h.peer,
    h.lock, h.tally, fun id' w hw hcurrent ↦ ?_, fun id' w₀ hw₀ ↦ ?_, by simp, ?_⟩
  · rcases Table.get?_set_eq_some_iff.mp hw with ⟨rfl, -⟩ | ⟨-, hw⟩
    · exact h.lock
    · exact h.held id' w hw hcurrent
  · obtain ⟨w, hw, hwaiting, hfinished⟩ := h.workers id' w₀ hw₀
    by_cases hid : id = id'
    · subst hid
      obtain rfl := Option.some.inj (hworker.symm.trans hw)
      exact ⟨_, Table.get?_set_self .., hwaiting, hfinished⟩
    · exact ⟨w, (Table.get?_set_of_ne _ _ hid).trans hw, hwaiting, hfinished⟩
  · intro job talk' heq
    cases heq
    refine ⟨_, _, Table.get?_set_self .., rfl, ?_⟩
    rw [h.peer]
    exact hleads.reply

/-- A worker is done: its call has returned. -/
private theorem putDown {batch : Batch} {tally : Tally} {waiting finished : List Batch}
    (h : InOrder s₀ s jobs pending)
    (hworker : s.workers.get? id = some ⟨waiting, some (.done (batch, tally)), finished⟩) :
    ∃ job, InOrder s₀
      { s with lock := none, tally, workers := s.workers.set id ⟨waiting, none, batch :: finished⟩ }
      (jobs ++ [job]) none := by
  obtain ⟨original, talk, rfl, hleads⟩ := h.pending_of_current hworker rfl
  have hafter := after_concat s₀ jobs ⟨id, original⟩
  simp only [hleads.run, Dialogue.run] at hafter
  refine ⟨⟨id, original⟩, h.config, h.peer, rfl, by rw [hafter], fun id' w hw hcurrent ↦ ?_,
    fun id' w₀ hw₀ ↦ ?_, fun _ ↦ by rw [hafter], by simp⟩
  · rcases Table.get?_set_eq_some_iff.mp hw with ⟨rfl, rfl⟩ | ⟨hne, hw⟩
    · exact absurd rfl hcurrent
    · have hlock := (h.held id' w hw hcurrent).symm.trans h.lock
      exact absurd (Option.some.inj hlock).symm hne
  · obtain ⟨w, hw, hwaiting, hfinished⟩ := h.workers id' w₀ hw₀
    simp only [Option.toList_some, List.map_cons, List.map_nil] at hwaiting
    simp only [Option.toList_none, List.map_nil, List.append_nil, hafter, resultsOf_concat]
    by_cases hid : id = id'
    · subst hid
      obtain rfl := Option.some.inj (hworker.symm.trans hw)
      exact ⟨_, Table.get?_set_self .., hwaiting, by simp [hfinished]⟩
    · exact ⟨w, (Table.get?_set_of_ne _ _ hid).trans hw, hwaiting, by simp [hfinished, hid]⟩

/-- A move of a worker keeps the calls in a row. -/
theorem step (h : InOrder s₀ s jobs pending) (hstep : s.step id = some t) :
    ∃ jobs' pending', InOrder s₀ t jobs' pending' := by
  cases step_eq_some_iff.mp hstep with
  | takenUp hworker hlock =>
    have hnone : pending = none := by
      cases pending with
      | none => rfl
      | some p => cases h.lock.symm.trans hlock
    subst hnone
    exact ⟨jobs, _, h.takeUp hworker⟩
  | asked hworker =>
    obtain ⟨pending', hnext⟩ := h.ask hworker
    exact ⟨jobs, pending', hnext⟩
  | putDown hworker =>
    obtain ⟨job, hnext⟩ := h.putDown hworker
    exact ⟨jobs ++ [job], none, hnext⟩

end InOrder

/-- Whatever order the workers are moved in, their calls can be put in a row. -/
theorem inOrder_of_moves (hlock : s₀.lock = none)
    (hfresh : ∀ id w, s₀.workers.get? id = some w → w = .fresh w.waiting)
    (h : s₀.moves ids = some s) : ∃ jobs pending, InOrder s₀ s jobs pending := by
  induction ids using List.reverseRecOn generalizing s with
  | nil =>
    cases h
    refine ⟨[], none, rfl, rfl, hlock, rfl, fun id w hw hcurrent ↦ ?_, fun id w hw ↦ ?_,
      fun _ ↦ rfl, by simp⟩
    · rw [hfresh id w hw] at hcurrent
      exact absurd rfl hcurrent
    · refine ⟨w, hw, rfl, ?_⟩
      rw [hfresh id w hw]
      rfl
  | append_singleton ids id ih =>
    rw [moves_concat] at h
    obtain ⟨t, ht, hstep⟩ := Option.bind_eq_some_iff.mp h
    obtain ⟨jobs, pending, horder⟩ := ih ht
    exact horder.step hstep

end

end Shared

end Sidecar.Stage
