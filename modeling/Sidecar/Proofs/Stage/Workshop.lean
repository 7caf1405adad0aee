import Mathlib.Data.List.Infix
import Sidecar.Proofs.Stage.Turns
import Sidecar.Proofs.Supervisor.Responses
import Sidecar.Proofs.Supervisor.Steady
import Sidecar.Stage.Workshop

/-!
# Stages with a supervisor, act by act

What an act does is one of five things (`ActStep`). A worker that has locked the stage is the only
caller of the supervisor (`Manned`), so that exchanges do not overlap (`serialized_of_run`).
-/

namespace Sidecar.Stage

open Supervisor (Label Caller CallerId Child Outcome)

/-- What the supervisor does in an act. -/
def Act.label? : Act → Option Label
  | .inner label => some label
  | _ => none

/-- What the supervisor does in some acts. -/
def labelsOf (acts : List Act) : List Label := acts.filterMap Act.label?

namespace Workshop

/-- What an act does. -/
inductive ActStep (w : Workshop) : Act → Workshop → Prop where
  /-- A worker locks the stage for a batch. -/
  | takenUp {id : WorkerId} {batch : Batch} {waiting finished : List Batch}
      (hworker : w.workers.get? id = some ⟨batch :: waiting, none, finished⟩)
      (hlock : w.lock = none) :
      ActStep w (.takeUp id)
        { w with
          lock := some id
          workers := w.workers.set id
            ⟨waiting, some (process w.supervisor.config batch w.tally), finished⟩ }
  /-- A worker is done with its batch. -/
  | putDown {id : WorkerId} {batch : Batch} {tally : Tally} {waiting finished : List Batch}
      (hworker : w.workers.get? id = some ⟨waiting, some (.done (batch, tally)), finished⟩) :
      ActStep w (.putDown id)
        { w with
          lock := none, tally, workers := w.workers.set id ⟨waiting, none, batch :: finished⟩ }
  /-- A worker calls for an exchange. -/
  | called {id : WorkerId} {request : Request} {next : Reply → Dialogue (Batch × Tally)}
      {waiting finished : List Batch} {supervisor : Supervisor}
      (hworker : w.workers.get? id = some ⟨waiting, some (.ask request next), finished⟩)
      (hstep : w.supervisor.step (.call id (.exchange request.frame)) = some supervisor) :
      ActStep w (.inner (.call id (.exchange request.frame))) (w.withSupervisor supervisor)
  /-- A worker has got its reply. -/
  | replied {id : WorkerId} {request : Request} {next : Reply → Dialogue (Batch × Tally)}
      {waiting finished : List Batch} {outcome : Outcome} {supervisor : Supervisor}
      (hworker : w.workers.get? id = some ⟨waiting, some (.ask request next), finished⟩)
      (hpost : w.supervisor.callers.get? id = some (.done outcome))
      (hstep : w.supervisor.step (.leave id) = some supervisor) :
      ActStep w (.inner (.leave id))
        { w with
          supervisor
          workers := w.workers.set id ⟨waiting, some (next outcome.reply), finished⟩ }
  /-- The supervisor takes a step by itself. -/
  | aside {label : Label} {supervisor : Supervisor} (hcall : ∀ id call, label ≠ .call id call)
      (hleave : ∀ id, label ≠ .leave id) (hstep : w.supervisor.step label = some supervisor) :
      ActStep w (.inner label) (w.withSupervisor supervisor)

/-- Only the worker that has locked the stage processes a batch, and it calls only while it asks. -/
structure Manned (w : Workshop) : Prop where
  held : ∀ id worker, w.workers.get? id = some worker → worker.current ≠ none → w.lock = some id
  callers : ∀ id post, w.supervisor.callers.get? id = some post →
    ∃ waiting request next finished,
      w.workers.get? id = some ⟨waiting, some (.ask request next), finished⟩

section

variable {w w' w'' : Workshop} {act : Act} {acts : List Act} {label : Label} {id id' : WorkerId}
  {post : Caller}

/-- Every act does one of these. -/
theorem actStep_of_step (h : w.step act = some w') : ActStep w act w' := by
  cases act with
  | takeUp id =>
    simp only [step] at h
    split at h
    · next hworker =>
      split at h
      · cases h
      · next hlock =>
        cases h
        exact .takenUp hworker (by simpa using hlock)
    · cases h
  | putDown id =>
    simp only [step] at h
    split at h
    · next hworker =>
      cases h
      exact .putDown hworker
    · cases h
  | inner label =>
    cases label with
    | call id call =>
      simp only [step] at h
      split at h
      · next hworker =>
        split at h
        · next hcall =>
          subst hcall
          obtain ⟨supervisor, hstep, rfl⟩ := Option.map_eq_some_iff.mp h
          exact .called hworker hstep
        · cases h
      · cases h
    | leave id =>
      simp only [step] at h
      split at h
      · next hworker hpost =>
        obtain ⟨supervisor, hstep, rfl⟩ := Option.map_eq_some_iff.mp h
        exact .replied hworker hpost hstep
      · cases h
    | _ =>
      obtain ⟨supervisor, hstep, rfl⟩ := Option.map_eq_some_iff.mp h
      exact .aside (by simp) (by simp) hstep

/-- The supervisor takes the step of its label, or none. -/
theorem ActStep.supervisor (h : ActStep w act w') :
    w.supervisor.run act.label?.toList = some w'.supervisor := by
  cases h with
  | takenUp => rfl
  | putDown => rfl
  | called _ hstep => simp [Act.label?, Supervisor.run_cons, hstep, withSupervisor]
  | replied _ _ hstep => simp [Act.label?, Supervisor.run_cons, hstep]
  | aside _ _ hstep => simp [Act.label?, Supervisor.run_cons, hstep, withSupervisor]

/-! ## Runs -/

/-- Some acts are fewer acts and a last one. -/
theorem run_concat_eq_some :
    w.run (acts ++ [act]) = some w'' ↔ ∃ w', w.run acts = some w' ∧ w'.step act = some w'' := by
  rw [run, List.foldlM_append, Option.bind_eq_bind, Option.bind_eq_some_iff]
  simp only [List.foldlM_cons, List.foldlM_nil]
  refine exists_congr fun w' ↦ and_congr Iff.rfl ?_
  cases w'.step act <;> simp

/-- What holds of no acts, and of one act more where it holds of some, holds of every run. -/
theorem run_induction {P : List Act → Workshop → Prop} (nil : P [] w)
    (concat : ∀ acts act t u, w.run acts = some t → P acts t → ActStep t act u →
      P (acts ++ [act]) u)
    (hrun : w.run acts = some w') : P acts w' := by
  induction acts using List.reverseRecOn generalizing w' with
  | nil =>
    cases hrun
    exact nil
  | append_singleton acts act ih =>
    obtain ⟨t, ht, hstep⟩ := run_concat_eq_some.mp hrun
    exact concat acts act t w' ht (ih ht) (actStep_of_step hstep)

/-- The supervisor takes the step of an act's label after the others. -/
theorem labelsOf_concat (acts : List Act) (act : Act) :
    labelsOf (acts ++ [act]) = labelsOf acts ++ act.label?.toList := by
  rw [labelsOf, List.filterMap_append]
  cases h : act.label? <;> simp [labelsOf, h]

/-- In a run the supervisor makes a run of its own. -/
theorem supervisor_of_run (hrun : w.run acts = some w') :
    w.supervisor.run (labelsOf acts) = some w'.supervisor := by
  refine run_induction (P := fun acts t ↦ w.supervisor.run (labelsOf acts) = some t.supervisor)
    rfl (fun acts act t u _ ih hact ↦ ?_) hrun
  rw [labelsOf_concat, Supervisor.run_append, ih]
  exact hact.supervisor

/-- What the supervisor has done at some time it has done in the acts up to then. -/
theorem exists_prefix {past : List Label} (hpast : past <+: labelsOf acts)
    (hrun : w.run acts = some w') :
    ∃ before t, before <+: acts ∧ labelsOf before = past ∧ w.run before = some t := by
  induction acts using List.reverseRecOn generalizing w' with
  | nil => exact ⟨[], w, List.nil_prefix, (List.prefix_nil.mp hpast).symm, rfl⟩
  | append_singleton acts act ih =>
    by_cases hall : past = labelsOf (acts ++ [act])
    · exact ⟨acts ++ [act], w', List.prefix_rfl, hall.symm, hrun⟩
    · obtain ⟨t, ht, -⟩ := run_concat_eq_some.mp hrun
      have hshort : past <+: labelsOf acts := by
        rw [labelsOf_concat] at hpast hall
        cases hlabel : act.label? with
        | none => simpa [hlabel] using hpast
        | some label =>
          rw [hlabel] at hpast hall
          exact (List.prefix_concat_iff.mp hpast).resolve_left hall
      obtain ⟨before, u, hbefore, hlabels, hu⟩ := ih hshort ht
      exact ⟨before, u, hbefore.trans (List.prefix_append _ _), hlabels, hu⟩

/-! ## One caller at a time -/

namespace Manned

/-- Whoever calls has locked the stage. -/
theorem lock_of_caller (h : Manned w) (hpost : w.supervisor.callers.get? id = some post) :
    w.lock = some id := by
  obtain ⟨waiting, request, next, finished, hworker⟩ := h.callers id post hpost
  exact h.held id _ hworker (Option.some_ne_none _)

/-- There is one caller at most. -/
theorem only {post' : Caller} (h : Manned w)
    (hpost : w.supervisor.callers.get? id = some post)
    (hpost' : w.supervisor.callers.get? id' = some post') : id = id' :=
  Option.some.inj ((h.lock_of_caller hpost).symm.trans (h.lock_of_caller hpost'))

/-- An act lets only the worker call that has locked the stage. -/
theorem step (h : Manned w) (hact : ActStep w act w') : Manned w' := by
  cases hact with
  | takenUp hworker hlock =>
    refine ⟨fun id' worker hget hcurrent ↦ ?_, fun id' post hpost ↦ ?_⟩
    · rcases Table.get?_set_eq_some_iff.mp hget with ⟨rfl, -⟩ | ⟨-, hget⟩
      · rfl
      · cases (h.held id' worker hget hcurrent).symm.trans hlock
    · cases (h.lock_of_caller hpost).symm.trans hlock
  | @putDown id _ _ _ _ hworker =>
    have hlock : w.lock = some id := h.held id _ hworker (Option.some_ne_none _)
    refine ⟨fun id' worker hget hcurrent ↦ ?_, fun id' post hpost ↦ ?_⟩
    · rcases Table.get?_set_eq_some_iff.mp hget with ⟨rfl, rfl⟩ | ⟨hne, hget⟩
      · exact absurd rfl hcurrent
      · exact absurd (Option.some.inj (hlock.symm.trans (h.held id' worker hget hcurrent))) hne
    · obtain rfl := Option.some.inj (hlock.symm.trans (h.lock_of_caller hpost))
      obtain ⟨_, _, _, _, hasking⟩ := h.callers _ post hpost
      cases hworker.symm.trans hasking
  | @called id request next waiting finished supervisor hworker hstep =>
    refine ⟨h.held, fun id' post hpost ↦ ?_⟩
    by_cases hid : id = id'
    · exact ⟨waiting, request, next, finished, hid ▸ hworker⟩
    · have hother : (Label.call id (.exchange request.frame)).caller? ≠ some id' :=
        fun heq ↦ hid (Option.some.inj heq)
      exact h.callers id' post ((Supervisor.get?_callers_of_step hstep hother).symm.trans hpost)
  | @replied id request next waiting finished outcome supervisor hworker hpost hstep =>
    have hlock := h.lock_of_caller hpost
    refine ⟨fun id' worker hget hcurrent ↦ ?_, fun id' post' hpost' ↦ ?_⟩
    · rcases Table.get?_set_eq_some_iff.mp hget with ⟨rfl, -⟩ | ⟨-, hget⟩
      · exact hlock
      · exact h.held id' worker hget hcurrent
    · simp only [Supervisor.step, hpost, Option.some.injEq] at hstep
      subst hstep
      simp only [Table.get?_erase] at hpost'
      split at hpost'
      · cases hpost'
      · next hne => exact absurd (h.only hpost hpost') hne
  | @aside label supervisor hcall hleave hstep =>
    refine ⟨h.held, fun id' post hpost ↦ ?_⟩
    by_cases hown : label.caller? = some id'
    · cases hbefore : w.supervisor.callers.get? id' with
      | none =>
        obtain ⟨call, rfl⟩ := Supervisor.call_of_absent hstep hown hbefore
        exact absurd rfl (hcall id' call)
      | some before => exact h.callers id' before hbefore
    · exact h.callers id' post ((Supervisor.get?_callers_of_step hstep hown).symm.trans hpost)

end Manned

/-- A stage whose workers have done nothing, with a supervisor on which nobody has worked. -/
structure Fresh (w : Workshop) (config : Config) : Prop where
  supervisor : w.supervisor = Supervisor.created config
  tally : w.tally = {}
  lock : w.lock = none
  workers : ∀ id worker, w.workers.get? id = some worker → worker = .fresh worker.waiting

section

variable {config : Config}

/-- In every run only the worker that has locked the stage calls. -/
theorem manned_of_run (hfresh : Fresh w config) (hrun : w.run acts = some w') : Manned w' := by
  refine run_induction (P := fun _ ↦ Manned) ⟨fun id worker hget hcurrent ↦ ?_,
    fun id post hpost ↦ ?_⟩ (fun _ _ _ _ _ ih hact ↦ ih.step hact) hrun
  · rw [hfresh.workers id worker hget] at hcurrent
    exact absurd rfl hcurrent
  · rw [hfresh.supervisor] at hpost
    cases hpost

/-- Exchanges for the workers of a stage do not overlap. -/
theorem serialized_of_run (hfresh : Fresh w config) (hrun : w.run acts = some w')
    (g : Supervisor.Generation) :
    Supervisor.Serialized (Supervisor.created config) (labelsOf acts) g := by
  intro past u id id' post post' hpast hu hpost hpost' _ _
  obtain ⟨before, t, -, rfl, ht⟩ := exists_prefix hpast hrun
  have hsupervisor := supervisor_of_run ht
  rw [hfresh.supervisor, hu] at hsupervisor
  obtain rfl := Option.some.inj hsupervisor
  exact (manned_of_run hfresh ht).only hpost hpost'

end

end

end Workshop

end Sidecar.Stage
