import Sidecar.Proofs.Supervisor.Starts

/-!
# Starts that fail

Whatever happens while a start is underway, nothing but the child in its hands is new
(`InProgress.step`). So a start that fails leaves the slot as it was and no child behind, and a
creation that fails leaves no child running (`failed_start_leaves_nothing`).
-/

namespace Sidecar.Supervisor

/-- A thread begins to start a child, and is not done with that before the last of some labels. -/
structure Begun (s : Supervisor) (h : Holder) (labels : List Label) (t : Supervisor) : Prop where
  begins : s.startOf? h = some .requested
  run : s.run (h.label :: labels) = some t
  on : ∀ past label rest u, labels = past ++ label :: rest → s.run (h.label :: past) = some u →
    u.startOf? h ≠ none

/-- How many children a start has in its hands. -/
def Start.spawned : Start → Nat
  | .equipping _ => 1
  | .scrapping _ _ => 1
  | _ => 0

/-- What has befallen a start that stands somewhere. -/
def faultsAt (s : Supervisor) : Start → List Failure
  | .discarding => [s.uncapturedFailure]
  | .scrapping _ cause => [.io cause]
  | _ => []

/-- A thread has locked the slot for a start, and some labels later the slot is still as it was. A
child that was spawned meanwhile is in the thread's hands. -/
structure InProgress (s : Supervisor) (h : Holder) (labels : List Label) (t : Supervisor)
    (start : Start) : Prop where
  stands : t.startOf? h = some start
  locked : start ≠ .requested
  opened : s.isClosed = false
  empty : s.handle = none
  config : t.config = s.config
  handle : t.handle = none
  lifecycle : t.lifecycle = s.lifecycle
  counted : t.restarts + t.uncounted = s.restarts + s.uncounted
  generation : t.generation = s.generation + start.spawned
  child : ∀ g, (Duty.start start).child? = some g → g = t.generation
  faults : s.faults h labels = s.faultsAt start

/-- After a start that has failed the slot is as it was before, nothing is counted, and no child is
left behind: those that were spawned meanwhile are reaped. -/
structure Restored (s t : Supervisor) : Prop where
  unlocked : t.lock = none
  handle : t.handle = s.handle
  lifecycle : t.lifecycle = s.lifecycle
  /-- What the warden was about to count before may be counted meanwhile. -/
  counted : t.restarts + t.uncounted = s.restarts + s.uncounted
  reaped : ∀ g c, s.generation < g → t.children.get? g = some c → c.status = .reaped
  strays : ∀ status ∈ t.strays, status = .reaped

section

variable {s t u : Supervisor} {h : Holder} {start : Start} {label : Label} {labels : List Label}

/-! ## What a start counts -/

/-- The labels of a thread that begins to start a child put no child into the slot. -/
private theorem label_ne_equip (h h' : Holder) (outcome : Equip) : h.label ≠ .equip h' outcome := by
  cases h <;> exact nofun

/-- Nothing is counted where shutdown was requested or the slot is empty, unless the warden puts a
child into the slot. -/
private theorem counts_of_empty (hempty : s.isClosed = true ∨ s.handle = none)
    (hlabel : label ≠ .equip .warden .equipped) : s.counts label = 0 := by
  rw [counts, if_neg hlabel, Nat.zero_add]
  apply if_neg
  simp only [findsChild, decide_eq_true_eq, not_and]
  rintro - - hopen hfull
  obtain hclosed | hnone := hempty
  · rw [hclosed] at hopen
    cases hopen
  · rw [hnone] at hfull
    cases hfull

/-- What is counted is never taken back. -/
theorem restarts_le_of_run (hrun : s.run labels = some t) : s.restarts ≤ t.restarts := by
  refine run_induction (P := fun _ t ↦ s.restarts ≤ t.restarts) (Nat.le_refl _)
    (fun _ _ t u _ hle hstep ↦ hle.trans ?_) hrun
  cases move_of_step hstep with
  | counted _ => exact Nat.le_succ _
  | _ => exact Nat.le_refl _

/-! ## Starts in progress -/

/-- A start that goes on with the slot as it was is in progress. -/
private theorem inProgress_placeStart {next : Start} (hnext : next ≠ .requested)
    (hopen : s.isClosed = false) (hempty : s.handle = none) (hconfig : u.config = s.config)
    (hhandle : u.handle = none) (hlifecycle : u.lifecycle = s.lifecycle)
    (hcounted : (u.placeStart next h).restarts + (u.placeStart next h).uncounted =
      s.restarts + s.uncounted)
    (hgeneration : u.generation = s.generation + next.spawned)
    (hchild : ∀ g, (Duty.start next).child? = some g → g = u.generation)
    (hfaults : s.faults h labels = s.faultsAt next) :
    InProgress s h labels (u.placeStart next h) next := by
  have hstands := startOf?_placeStart u next h
  obtain ⟨callers, warden, heq⟩ := placeStart_eq u next h
  rw [heq] at hstands hcounted ⊢
  exact ⟨hstands, hnext, hopen, hempty, hconfig, hhandle, hlifecycle, hcounted, hgeneration,
    hchild, hfaults⟩

/-- With its first label a start that is not over has locked the slot. -/
theorem InProgress.begun (hstart : s.startOf? h = some .requested)
    (hstep : s.step h.label = some t) (hon : t.startOf? h ≠ none) :
    InProgress s h [] t .launching := by
  obtain ⟨-, ⟨result, -, rfl⟩ | ⟨u, hbegin, rfl⟩⟩ := begin_of_step hstart hstep
  · exact absurd (startOf?_endStart s result h) hon
  · obtain ⟨hopen, hempty⟩ := empty_of_beginStart hbegin
    have hcounted := counted_of_step hstep
    rw [counts_of_empty (.inr hempty) (label_ne_equip h _ _), Nat.add_zero] at hcounted
    obtain rfl := eq_of_beginStart hbegin
    exact inProgress_placeStart (by simp) hopen hempty rfl hempty rfl hcounted rfl
      (by simp [Duty.child?]) rfl

section

variable (hprogress : InProgress s h labels t start) (ht : t.Reachable)
  (hstep : t.step label = some u)
include hprogress

/-- While a start is in progress nothing is counted but what was about to be before. -/
private theorem InProgress.counted_of_step (hstep : t.step label = some u)
    (hlabel : label ≠ .equip .warden .equipped) :
    u.restarts + u.uncounted = s.restarts + s.uncounted := by
  rw [Supervisor.counted_of_step hstep, counts_of_empty (.inr hprogress.handle) hlabel]
  exact hprogress.counted

/-- What has befallen a start in progress with one more label. -/
private theorem InProgress.faults_concat (label : Label) :
    s.faults h (labels ++ [label]) = s.faultsAt start ++ (t.fault? h label).toList := by
  rw [Supervisor.faults_concat, hprogress.faults, fault?_of_config hprogress.config]

/-- A start in progress has the configuration that it had, and so fails for the same reasons. -/
private theorem InProgress.uncapturedFailure : t.uncapturedFailure = s.uncapturedFailure := by
  simp only [Supervisor.uncapturedFailure, hprogress.config]

include ht hstep

/-- A start that is not over goes on. -/
theorem InProgress.step (hon : u.startOf? h ≠ none) :
    ∃ start', InProgress s h (labels ++ [label]) u start' := by
  obtain ⟨hopen, hempty⟩ := And.intro hprogress.opened hprogress.empty
  obtain ⟨hconfig, hhandle⟩ := And.intro hprogress.config hprogress.handle
  have hcounted := hprogress.counted_of_step hstep
  have hfaults := hprogress.faults_concat label
  have hgeneration := hprogress.generation
  cases startStep_of_step ht hprogress.stands hprogress.locked hstep with
  | aside hstands hhandle' hlifecycle hsame hfault hlabel =>
    rw [hfault] at hfaults
    refine ⟨start, hstands, hprogress.locked, hopen, hempty, (config_of_step hstep).trans hconfig,
      hhandle'.trans hhandle, hlifecycle.trans hprogress.lifecycle, hcounted hlabel,
      hsame.trans hgeneration, ?_, hfaults.trans (List.append_nil _)⟩
    rw [hsame]
    exact hprogress.child
  | refused => exact absurd (startOf?_endStart ..) hon
  | equipped => exact absurd (startOf?_endStart ..) hon
  | abandoned => exact absurd (startOf?_endStart ..) hon
  | uncaptured =>
    refine ⟨.discarding, inProgress_placeStart (by simp) hopen hempty hconfig hhandle
      hprogress.lifecycle (hcounted (by simp)) hgeneration (by simp [Duty.child?]) ?_⟩
    rw [hfaults, fault?, if_pos rfl, hprogress.uncapturedFailure]
    rfl
  | launched =>
    refine ⟨.equipping _, inProgress_placeStart (by simp) hopen hempty hconfig hhandle
      hprogress.lifecycle (hcounted (by simp)) (congrArg (· + 1) hgeneration) ?_ hfaults⟩
    intro g hg
    exact (Option.some.inj hg).symm
  | unequipped =>
    refine ⟨.scrapping _ _, inProgress_placeStart (by simp) hopen hempty hconfig hhandle
      hprogress.lifecycle (hcounted (by simp)) hgeneration hprogress.child ?_⟩
    rw [hfaults, fault?, if_pos rfl]
    rfl

end

/-! ## The end of a start -/

/-- Where the slot is not locked, children without a generation are reaped. -/
private theorem strays_of_unlocked (hs : s.Reachable) (hlock : s.lock = none) :
    ∀ status ∈ s.strays, status = .reaped := by
  apply hs.straysReaped.settled
  intro h hduty
  have hlocked := hs.locked.lock_eq hduty
  rw [hlock] at hlocked
  cases hlocked

/-- A start that ends with the slot as it was, and with every new child reaped, is undone. -/
private theorem restored_endStart {result : Except Failure Unit}
    (hreachable : (u.endStart result h).Reachable) (hunlocked : u.lock = none)
    (hhandle : u.handle = s.handle) (hlifecycle : u.lifecycle = s.lifecycle)
    (hcounted : (u.endStart result h).restarts + (u.endStart result h).uncounted =
      s.restarts + s.uncounted)
    (hreaped : ∀ g c, s.generation < g → g ≤ u.generation → u.children.get? g = some c →
      c.status = .reaped) :
    Restored s (u.endStart result h) := by
  obtain ⟨callers, warden, heq⟩ := endStart_eq u result h
  rw [heq] at hreachable hcounted ⊢
  refine ⟨hunlocked, hhandle, hlifecycle, hcounted, ?_, strays_of_unlocked hreachable hunlocked⟩
  intro g c hnew hchild
  exact hreaped g c hnew (hreachable.le_of_child hchild) hchild

/-- Where no child was spawned since, there is no new one. -/
private theorem reaped_of_unspawned (hgeneration : u.generation = s.generation) :
    ∀ g c, s.generation < g → g ≤ u.generation → u.children.get? g = some c →
      c.status = .reaped := by
  intro g c hnew hold _
  rw [hgeneration] at hold
  exact absurd hold (Nat.not_le_of_lt hnew)

/-- Where the one child that was spawned since is reaped, all new ones are. -/
private theorem reaped_of_spawned {g : Generation} (hgeneration : u.generation = s.generation + 1)
    (hchild : g = u.generation) :
    ∀ g' c, s.generation < g' → g' ≤ u.generation → (u.reap g).children.get? g' = some c →
      c.status = .reaped := by
  intro g' c hnew hold hget
  rw [hgeneration] at hchild hold
  obtain rfl : g' = g := Nat.le_antisymm (hchild ▸ hold) (hchild ▸ hnew)
  simp only [reap, modifyChild, Table.get?_modify, if_true] at hget
  obtain ⟨c', -, rfl⟩ := Option.map_eq_some_iff.mp hget
  rfl

/-- A start that is over has put a child into the slot, and nothing has befallen it, or it has
failed for what has befallen it, and is undone. -/
theorem InProgress.over (hprogress : InProgress s h labels t start) (ht : t.Reachable)
    (hstep : t.step label = some u) (hend : u.startOf? h = none) :
    u.StartEnded h (.ok ()) ∧ s.faults h (labels ++ [label]) = [] ∨
      ∃ failure, u.StartEnded h (.error failure) ∧ s.faults h (labels ++ [label]) = [failure] ∧
        Restored s u := by
  have hu : u.Reachable := ht.trans (.step label (.refl t) hstep)
  have hcounted := hprogress.counted_of_step hstep
  have hfaults := hprogress.faults_concat label
  have hgeneration := hprogress.generation
  have hhandle : t.handle = s.handle := hprogress.handle.trans hprogress.empty.symm
  cases startStep_of_step ht hprogress.stands hprogress.locked hstep with
  | aside hstands =>
    rw [hend] at hstands
    cases hstands
  | uncaptured => cases (startOf?_placeStart ..).symm.trans hend
  | launched => cases (startOf?_placeStart ..).symm.trans hend
  | unequipped => cases (startOf?_placeStart ..).symm.trans hend
  | equipped => exact .inl ⟨startEnded_endStart .., hfaults⟩
  | refused =>
    rw [fault?, if_pos rfl] at hfaults
    refine .inr ⟨_, startEnded_endStart .., hfaults, ?_⟩
    exact restored_endStart hu rfl hhandle hprogress.lifecycle (hcounted (by simp))
      (reaped_of_unspawned hgeneration)
  | abandoned habandon =>
    have hnone : t.fault? h h.label = none := by cases h <;> rfl
    rw [hnone] at hfaults
    have hcounted := hcounted (label_ne_equip h _ _)
    cases start with
    | discarding =>
      cases habandon
      rw [hprogress.uncapturedFailure] at hu hcounted ⊢
      refine .inr ⟨_, startEnded_endStart .., hfaults, ?_⟩
      exact restored_endStart hu rfl hhandle hprogress.lifecycle hcounted
        (reaped_of_unspawned hgeneration)
    | scrapping g cause =>
      cases habandon
      refine .inr ⟨_, startEnded_endStart .., hfaults, ?_⟩
      exact restored_endStart hu rfl hhandle hprogress.lifecycle hcounted
        (reaped_of_spawned hgeneration (hprogress.child g rfl))
    | _ => cases habandon

/-- A start that is over at once has found that there is nothing to do. -/
private theorem over_at_once (hs : s.Reachable) (hstart : s.startOf? h = some .requested)
    (hstep : s.step h.label = some t) (hend : t.startOf? h = none) :
    s.isClosed = true ∧ t.StartEnded h (.error .closed) ∧ Restored s t ∨
      s.isClosed = false ∧ t.StartEnded h (.ok ()) := by
  have ht : t.Reachable := hs.trans (.step _ (.refl s) hstep)
  obtain ⟨hlock, ⟨result, hbegin, rfl⟩ | ⟨u, -, rfl⟩⟩ := begin_of_step hstart hstep
  · obtain ⟨hclosed, rfl⟩ | ⟨hopen, rfl⟩ := result_of_beginStart hbegin
    · have hcounted := counted_of_step hstep
      rw [counts_of_empty (.inl hclosed) (label_ne_equip h _ _), Nat.add_zero] at hcounted
      exact .inl ⟨hclosed, startEnded_endStart ..,
        restored_endStart ht hlock rfl rfl hcounted (reaped_of_unspawned rfl)⟩
    · exact .inr ⟨hopen, startEnded_endStart ..⟩
  · cases (startOf?_placeStart ..).symm.trans hend

/-- A start that has not been over since its first label is in progress. -/
private theorem inProgress_of_run (hs : s.Reachable) (hstart : s.startOf? h = some .requested)
    (hrun : s.run (h.label :: labels) = some t)
    (hon : ∀ past u, past <+: labels → s.run (h.label :: past) = some u → u.startOf? h ≠ none) :
    ∃ start, InProgress s h labels t start := by
  induction labels using List.reverseRecOn generalizing t with
  | nil =>
    have hstep : s.step h.label = some t := by
      rw [run_cons] at hrun
      obtain ⟨u, hstep, hsame⟩ := Option.bind_eq_some_iff.mp hrun
      cases hsame
      exact hstep
    exact ⟨_, .begun hstart hstep (hon [] t (List.nil_prefix) hrun)⟩
  | append_singleton labels label ih =>
    obtain ⟨u, hu, hstep⟩ := run_concat_eq_some.mp (List.cons_append ▸ hrun)
    obtain ⟨start, hprogress⟩ := ih hu fun past v hpast ↦
      hon past v (hpast.trans (List.prefix_append _ _))
    exact hprogress.step (hs.run hu) hstep (hon _ t List.prefix_rfl hrun)

/-- What a start comes to that is over, and how things stand then. -/
theorem Begun.over (hbegun : Begun s h labels t) (hs : s.Reachable) (hend : t.startOf? h = none) :
    ∃ result, t.StartEnded h result ∧
      (∀ failure, result = .error failure ↔
        s.isClosed = true ∧ failure = .closed ∨
          s.isClosed = false ∧ failure ∈ s.faults h labels) ∧
      ((∃ failure, result = .error failure) → Restored s t) := by
  rcases List.eq_nil_or_concat labels with rfl | ⟨front, last, rfl⟩
  · have hrun := hbegun.run
    rw [run_cons] at hrun
    obtain ⟨u, hstep, hsame⟩ := Option.bind_eq_some_iff.mp hrun
    cases hsame
    obtain ⟨hclosed, hended, hrestored⟩ | ⟨hopen, hended⟩ :=
      over_at_once hs hbegun.begins hstep hend
    · refine ⟨_, hended, ?_, fun _ ↦ hrestored⟩
      intro failure
      simp [hclosed, eq_comm]
    · refine ⟨_, hended, ?_, nofun⟩
      intro failure
      simp [hopen, faults]
  · -- Before the last label the start is still in progress, and the last label ends it.
    rw [List.concat_eq_append] at hbegun ⊢
    obtain ⟨u, hu, hstep⟩ := run_concat_eq_some.mp (List.cons_append ▸ hbegun.run)
    have hunended : ∀ past v, past <+: front → s.run (h.label :: past) = some v →
        v.startOf? h ≠ none := by
      rintro past v ⟨rest, rfl⟩ hv
      cases rest with
      | nil => exact hbegun.on past last [] v (by simp) hv
      | cons label rest => exact hbegun.on past label (rest ++ [last]) v (by simp) hv
    obtain ⟨start, hprogress⟩ := inProgress_of_run hs hbegun.begins hu hunended
    have hopen := hprogress.opened
    obtain ⟨hended, hfaults⟩ | ⟨failure, hended, hfaults, hrestored⟩ :=
      hprogress.over (hs.run hu) hstep hend
    · refine ⟨_, hended, ?_, nofun⟩
      intro failure
      simp [hopen, hfaults]
    · refine ⟨_, hended, ?_, fun _ ↦ hrestored⟩
      intro failure'
      simp [hopen, hfaults, eq_comm]

/-- A start that something has befallen is over with its next label. -/
theorem Begun.failing (hbegun : Begun s h labels t) (hs : s.Reachable)
    (hon : t.startOf? h ≠ none) (hfaults : s.faults h labels ≠ []) :
    ∃ u, t.step h.label = some u ∧ u.startOf? h = none := by
  have hunended : ∀ past v, past <+: labels → s.run (h.label :: past) = some v →
      v.startOf? h ≠ none := by
    rintro past v ⟨rest, rfl⟩ hv
    cases rest with
    | nil =>
      rw [← List.append_nil past, hbegun.run] at hv
      cases hv
      exact hon
    | cons label rest => exact hbegun.on past label rest v rfl hv
  obtain ⟨start, hprogress⟩ := inProgress_of_run hs hbegun.begins hbegun.run hunended
  rw [hprogress.faults] at hfaults
  rw [step_label_of_startOf? hprogress.stands hprogress.locked]
  cases start with
  | discarding => exact ⟨_, rfl, startOf?_endStart ..⟩
  | scrapping g cause => exact ⟨_, rfl, startOf?_endStart ..⟩
  | _ => exact absurd rfl hfaults

/-! ## Creation -/

/-- A creation fails exactly when the configuration is refused, or the child, one of its decoders or
the warden cannot be spawned. -/
theorem establish_fails_iff {config : Config} {env : Environment} {launch : Launch} {equip : Equip}
    {wardenFault : Option IoFault} :
    (∃ failure s, establish config env launch equip wardenFault = .error (failure, s)) ↔
      (∃ failure, program config env = .error failure) ∨ launch ≠ .launched ∨
        equip ≠ .equipped ∨ wardenFault ≠ none := by
  unfold establish
  cases program config env with
  | error failure => simp
  | ok path =>
    cases launch <;> cases equip <;> cases wardenFault <;>
      simp [create, launchChild, equipChild, abandon]

/-- No child is there before one is spawned. -/
private theorem reaped_of_none {c : Child} {g : Generation}
    (hchild : Table.empty.get? g = some c) : c.status = .reaped := by
  rw [Table.get?_empty] at hchild
  cases hchild

/-- A child that was spawned first and reaped is reaped. -/
private theorem reaped_of_first {fresh c : Child} {g : Generation}
    (hchild : ((Table.empty.set 1 fresh).modify 1 ({ · with status := .reaped })).get? g =
      some c) : c.status = .reaped := by
  rw [Table.get?_modify] at hchild
  split at hchild
  · obtain ⟨c', -, rfl⟩ := Option.map_eq_some_iff.mp hchild
    rfl
  · next hne =>
    rw [Table.get?_set_of_ne _ _ hne] at hchild
    cases hchild

/-- A creation that fails leaves an empty slot and no child that is not reaped. -/
theorem reaped_of_establish {config : Config} {env : Environment} {launch : Launch} {equip : Equip}
    {wardenFault : Option IoFault} {failure : Failure}
    (h : establish config env launch equip wardenFault = .error (failure, s)) :
    s.handle = none ∧ (∀ g c, s.children.get? g = some c → c.status = .reaped) ∧
      ∀ status ∈ s.strays, status = .reaped := by
  have hnone : ∀ status ∈ ([] : List Status), status = .reaped := by simp
  unfold establish at h
  split at h
  · cases h
    exact ⟨rfl, fun _ _ ↦ reaped_of_none, hnone⟩
  · cases launch with
    | refused cause =>
      cases h
      exact ⟨rfl, fun _ _ ↦ reaped_of_none, hnone⟩
    | uncaptured =>
      cases h
      refine ⟨rfl, fun _ _ ↦ reaped_of_none, ?_⟩
      intro status hstatus
      exact List.mem_singleton.mp hstatus
    | launched =>
      cases equip with
      | failed cause =>
        cases h
        exact ⟨rfl, fun _ _ ↦ reaped_of_first, hnone⟩
      | equipped =>
        cases wardenFault with
        | none => cases h
        | some cause =>
          cases h
          exact ⟨rfl, fun _ _ ↦ reaped_of_first, hnone⟩

end

/-- A start of a child, whoever makes it, comes to a success or to the failure that has befallen it:
shutdown was requested before, no child could be spawned, the child came without its standard
streams, or its decoders could not be spawned. After a failure the slot and what is shown of it are
as they were, no replacement is counted that was not there to be counted before, and what was
spawned is reaped; and what has befallen a start is all that it waits for. A creation that fails, if
only because the warden cannot be spawned, leaves no child behind that is not reaped. -/
theorem failed_start_leaves_nothing :
    (∀ (s t : Supervisor) (h : Holder) (labels : List Label), s.Reachable → Begun s h labels t →
      (t.startOf? h = none → ∃ result, t.StartEnded h result ∧
        (∀ failure, result = .error failure ↔
          s.isClosed = true ∧ failure = .closed ∨
            s.isClosed = false ∧ failure ∈ s.faults h labels) ∧
        ((∃ failure, result = .error failure) → Restored s t ∧
          (s.warden ≠ .counting → t.restarts = s.restarts))) ∧
      (t.startOf? h ≠ none → s.faults h labels ≠ [] →
        ∃ u, t.step h.label = some u ∧ u.startOf? h = none)) ∧
    (∀ (s : Supervisor) (h : Holder), s.startOf? h = some .requested → s.lock = none →
      s.isClosed = true → ∃ t, s.step h.label = some t ∧ t.startOf? h = none) ∧
    ∀ (config : Config) (env : Environment) (launch : Launch) (equip : Equip)
      (wardenFault : Option IoFault),
      ((∃ failure s, establish config env launch equip wardenFault = .error (failure, s)) ↔
        (∃ failure, program config env = .error failure) ∨ launch ≠ .launched ∨
          equip ≠ .equipped ∨ wardenFault ≠ none) ∧
      ∀ failure s, establish config env launch equip wardenFault = .error (failure, s) →
        s.handle = none ∧ (∀ g c, s.children.get? g = some c → c.status = .reaped) ∧
          ∀ status ∈ s.strays, status = .reaped := by
  refine ⟨?_, fun s h ↦ over_of_isClosed, ?_⟩
  · intro s t h labels hs hbegun
    refine ⟨?_, hbegun.failing hs⟩
    intro hend
    obtain ⟨result, hended, hfailures, hrestored⟩ := hbegun.over hs hend
    refine ⟨result, hended, hfailures, ?_⟩
    intro hfailed
    have hundone := hrestored hfailed
    refine ⟨hundone, ?_⟩
    intro hwarden
    have hcounted := hundone.counted
    have hle := restarts_le_of_run hbegun.run
    rw [uncounted, uncounted, if_neg hwarden] at hcounted
    omega
  · intro config env launch equip wardenFault
    exact ⟨establish_fails_iff, fun failure s ↦ reaped_of_establish⟩

/-- The child is stopped, and another one is about to be started. -/
def restarting : List Label :=
  [.call 0 .stop, .proceed 0, .proceed 0, .call 1 .start]

/-- A child is spawned, shutdown is requested, and a decoder cannot be spawned. -/
def undecoded : List Label :=
  [.launch (.caller 1) .launched, .call 2 .close, .proceed 2,
    .equip (.caller 1) (.failed (.ofKind .wouldBlock)), .proceed 1]

/-- A start whose decoder cannot be spawned fails, although shutdown was requested meanwhile, for
want of the decoder, and leaves nothing. -/
theorem failed_start_leaves_nothing_of_undecoded : ∃ s t, (created {}).run restarting = some s ∧
    Begun s (.caller 1) undecoded t ∧ t.isClosed = true ∧ t.generation = s.generation + 1 ∧
      t.StartEnded (.caller 1) (.error (.io (.ofKind .wouldBlock))) ∧ Restored s t ∧
      t.restarts = s.restarts := by
  obtain ⟨s, hs⟩ : ∃ s, (created {}).run restarting = some s := ⟨_, rfl⟩
  obtain ⟨t, ht⟩ : ∃ t, (created {}).run (restarting ++ Label.proceed 1 :: undecoded) = some t :=
    ⟨_, rfl⟩
  have hbefore : ((created {}).run restarting).map (fun s ↦
      (s.startOf? (.caller 1), s.isClosed, s.warden, s.generation)) =
        some (some .requested, false, .looking, 1) := by
    decide +kernel
  have hafter : ((created {}).run (restarting ++ Label.proceed 1 :: undecoded)).map (fun t ↦
      (t.startOf? (.caller 1), t.isClosed, t.generation)) = some (none, true, 2) := by
    decide +kernel
  have hon : (created {}).holdsAlong (restarting ++ Label.proceed 1 :: undecoded.dropLast)
      (fun before u ↦ before.length < 4 || (u.startOf? (.caller 1)).isSome) = true := by
    decide +kernel
  rw [hs, Option.map_some] at hbefore
  rw [ht, Option.map_some] at hafter
  simp only [Option.some.injEq, Prod.mk.injEq] at hbefore hafter
  obtain ⟨hbegins, hopen, hwarden, hfirst⟩ := hbefore
  obtain ⟨hend, hclosed, hsecond⟩ := hafter
  have hbegun : Begun s (.caller 1) undecoded t := by
    refine ⟨hbegins, ?_, ?_⟩
    · rwa [run_append, hs, Option.bind_some] at ht
    · intro past label rest u hsplit hu
      have hwithin : past <+: undecoded.dropLast :=
        ⟨(label :: rest).dropLast, by
          rw [hsplit, List.dropLast_append_of_ne_nil (List.cons_ne_nil _ _)]⟩
      have hrun : (created {}).run (restarting ++ Label.proceed 1 :: past) = some u := by
        rwa [run_append, hs, Option.bind_some]
      have hhere := of_holdsAlong hon
        ((List.prefix_append_right_inj _).mpr (List.cons_prefix_cons.mpr ⟨rfl, hwithin⟩)) hrun
      have hlong : ¬ (restarting ++ Label.proceed 1 :: past).length < 4 := by simp [restarting]
      rw [decide_eq_false hlong, Bool.false_or] at hhere
      exact Option.isSome_iff_ne_none.mp hhere
  have hreachable := (reachable_created {}).run hs
  obtain ⟨result, hended, hfailures, hrestored⟩ :=
    (failed_start_leaves_nothing.1 s t (.caller 1) undecoded hreachable hbegun).1 hend
  have hfailed : result = .error (.io (.ofKind .wouldBlock)) :=
    (hfailures _).mpr (.inr ⟨hopen, List.mem_singleton.mpr rfl⟩)
  obtain ⟨hundone, hcounted⟩ := hrestored ⟨_, hfailed⟩
  rw [hfailed] at hended
  exact ⟨s, t, hs, hbegun, hclosed, by rw [hfirst, hsecond], hended, hundone,
    hcounted (by rw [hwarden]; exact nofun)⟩

end Sidecar.Supervisor
