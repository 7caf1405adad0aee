import Mathlib.Data.List.Induction
import Mathlib.Data.List.Infix
import Sidecar.Proofs.Supervisor.Inversion
import Sidecar.Supervisor.Create

/-!
# Runs of a supervisor

A supervisor that was created has a live child in its slot and idle threads (`create_eq_ok`). What
holds of it then, and is kept by every move, holds of every supervisor that can be reached
(`Reachable.induction`).
-/

namespace Sidecar.Supervisor

/-- The supervisor after some labels, if all of them are possible in turn. -/
def run (s : Supervisor) (labels : List Label) : Option Supervisor := labels.foldlM step s

/-- Whether something holds of all states of a run and of the labels up to there. -/
def holdsAlong (s : Supervisor) (labels : List Label) (p : List Label → Supervisor → Bool) : Bool :=
  labels.inits.all fun past ↦ (s.run past).all (p past)

/-- A supervisor with its first child, on which nobody has worked. -/
def created (config : Config) : Supervisor where
  config
  lock := none
  handle := some 1
  lifecycle := .running
  isClosed := false
  closeNotice := false
  generation := 1
  restarts := 0
  children := Table.empty.set 1 (.fresh config false)
  strays := []
  warden := .looking
  callers := .empty
  cells := .empty

/-- A supervisor that some run of threads and children leads to. -/
def Reachable (s : Supervisor) : Prop :=
  ∃ config launch equip wardenFault s₀,
    create config launch equip wardenFault = .ok s₀ ∧ Reaches s₀ s

section

variable {s t u : Supervisor} {label : Label} {labels : List Label}

/-- No label, no change. -/
@[simp] theorem run_nil (s : Supervisor) : s.run [] = some s := rfl

/-- A run is a step and a run. -/
theorem run_cons (s : Supervisor) (label : Label) (labels : List Label) :
    s.run (label :: labels) = (s.step label).bind (·.run labels) := rfl

/-- A run is a run and a run. -/
theorem run_append (s : Supervisor) (labels labels' : List Label) :
    s.run (labels ++ labels') = (s.run labels).bind (·.run labels') :=
  List.foldlM_append

/-- A run is a run and a step. -/
theorem run_concat (s : Supervisor) (labels : List Label) (label : Label) :
    s.run (labels ++ [label]) = (s.run labels).bind (·.step label) := by
  rw [run_append]
  cases s.run labels with
  | none => rfl
  | some t =>
    simp only [Option.bind_some, run_cons]
    cases t.step label <;> rfl

/-- A run of some steps is one of fewer steps and a last one. -/
theorem run_concat_eq_some :
    s.run (labels ++ [label]) = some u ↔ ∃ t, s.run labels = some t ∧ t.step label = some u := by
  rw [run_concat, Option.bind_eq_some_iff]

/-- What is reached after something that is reached is reached. -/
theorem Reaches.trans (hst : Reaches s t) (htu : Reaches t u) : Reaches s u := by
  induction htu with
  | refl => exact hst
  | step label _ hstep ih => exact .step label ih hstep

/-- What holds of no labels, and of a run with one more label where it holds of the run, holds of
every run. -/
theorem run_induction {P : List Label → Supervisor → Prop} (nil : P [] s)
    (concat : ∀ labels label t u, s.run labels = some t → P labels t → t.step label = some u →
      P (labels ++ [label]) u)
    (hrun : s.run labels = some t) : P labels t := by
  induction labels using List.reverseRecOn generalizing t with
  | nil =>
    cases hrun
    exact nil
  | append_singleton labels label ih =>
    obtain ⟨u, hu, hstep⟩ := run_concat_eq_some.mp hrun
    exact concat labels label u t hu (ih hu) hstep

/-- What holds along a run holds after its first labels. -/
theorem of_holdsAlong {past : List Label} {p : List Label → Supervisor → Bool}
    (h : s.holdsAlong labels p = true) (hwithin : past <+: labels) (hrun : s.run past = some u) :
    p past u = true := by
  have hall := List.all_eq_true.mp h past ((List.mem_inits past labels).mpr hwithin)
  rwa [hrun] at hall

/-- The label that comes behind the first labels of a run is the next one. -/
theorem next_of_within {past : List Label} (h : past ++ [label] <+: labels) :
    labels[past.length]? = some label := by
  obtain ⟨rest, rfl⟩ := h
  rw [List.append_assoc, List.getElem?_append_right (Nat.le_refl _)]
  simp

/-- What a run leads to is reached. -/
theorem reaches_of_run (hrun : s.run labels = some t) : Reaches s t :=
  run_induction (P := fun _ ↦ Reaches s) (.refl s) (fun _ label _ _ _ h ↦ .step label h) hrun

/-- What every move keeps is kept until whatever is reached. -/
theorem Reaches.induction {P : Supervisor → Prop}
    (move : ∀ s label t, P s → Move s label t → P t) (h : Reaches s t) (hs : P s) : P t := by
  induction h with
  | refl => exact hs
  | step label _ hstep ih => exact move _ label _ ih (move_of_step hstep)

/-- A creation that works leaves a live child in the slot. -/
theorem create_eq_ok {config : Config} {launch : Launch} {equip : Equip}
    {wardenFault : Option IoFault} (h : create config launch equip wardenFault = .ok s) :
    s = created config := by
  cases launch with
  | refused cause => cases h
  | uncaptured => cases h
  | launched =>
    cases equip with
    | failed cause => cases h
    | equipped =>
      cases wardenFault with
      | some cause => cases h
      | none =>
        cases h
        rfl

/-- What is reached from a supervisor that can be reached can be reached. -/
theorem Reachable.trans (hs : s.Reachable) (hst : Reaches s t) : t.Reachable := by
  obtain ⟨config, launch, equip, wardenFault, s₀, hcreate, hreach⟩ := hs
  exact ⟨config, launch, equip, wardenFault, s₀, hcreate, hreach.trans hst⟩

/-- A supervisor with its first child can be reached. -/
theorem reachable_created (config : Config) : (created config).Reachable :=
  ⟨config, .launched, .equipped, none, created config, rfl, .refl _⟩

/-- What a run leads to from a supervisor that can be reached can be reached. -/
theorem Reachable.run (hs : s.Reachable) (hrun : s.run labels = some t) : t.Reachable :=
  hs.trans (reaches_of_run hrun)

/-- What holds of every new supervisor and is kept by every move holds of every supervisor that can
be reached. -/
theorem Reachable.induction {P : Supervisor → Prop} (start : ∀ config, P (created config))
    (move : ∀ s label t, s.Reachable → P s → Move s label t → P t) (h : s.Reachable) : P s := by
  obtain ⟨config, launch, equip, wardenFault, s₀, hcreate, hreach⟩ := h
  induction hreach with
  | refl =>
    rw [create_eq_ok hcreate]
    exact start config
  | step label hprefix hstep ih =>
    exact move _ label _ ⟨config, launch, equip, wardenFault, s₀, hcreate, hprefix⟩ ih
      (move_of_step hstep)

end

end Sidecar.Supervisor
