import Sidecar.Proofs.Supervisor.Shutdown

/-!
# What is shown of the slot

A child in the slot is shown as running, and an empty slot is not. There is one exception. The
warden shows that a replacement is being spawned before it has locked the slot to spawn it. Where
the slot is not empty by then, nothing is spawned and nobody takes the show back, for as long as
that child stays in the slot (`MarkedOver`).
-/

namespace Sidecar.Supervisor

/-- What is shown fits the slot. -/
def ShowsSlot (s : Supervisor) : Prop :=
  (s.lifecycle = .running ↔ s.handle.isSome) ∧
    (s.lifecycle = .starting ∨ s.lifecycle = .exiting ∨ s.lifecycle = .restarting →
      s.handle = none)

/-- At some time of a run the warden showed that a replacement is being spawned, and this child was
in the slot. -/
def MarkedOver (s : Supervisor) (labels : List Label) (g : Generation) : Prop :=
  ∃ before after t, labels = before ++ .warden :: after ∧ s.run before = some t ∧
    t.warden = .marking ∧ t.handle = some g

/-- What is shown, as far as it does not depend on how it came about. -/
structure Shown (s : Supervisor) : Prop where
  running : s.lifecycle = .running → s.handle.isSome
  full : s.handle.isSome → s.lifecycle ≠ .exiting
  started : s.lifecycle ≠ .starting
  closed : s.lifecycle = .closed → s.isClosed = true

/-- Which children in the slot are shown as being spawned. -/
structure Marks (s : Supervisor) (labels : List Label) (t : Supervisor) : Prop where
  slot : ∀ g, t.handle = some g → t.lifecycle ≠ .closed →
    (t.lifecycle = .restarting ↔ MarkedOver s labels g)
  past : ∀ g, MarkedOver s labels g →
    g ≤ t.generation ∧ ∀ h, t.duty? h ≠ some (.start (.equipping g))

section

variable {s t u : Supervisor} {label : Label} {labels : List Label} {g : Generation} {h : Holder}

/-! ## What is shown -/

private theorem enter_eq (present next : Lifecycle) :
    present.enter next = if present = .closed then .closed else next := by
  cases present <;> rfl

private theorem Shown.of_enter (hs : s.Shown) {next : Lifecycle}
    (hlifecycle : t.lifecycle = s.lifecycle.enter next)
    (hclosed : s.isClosed = true → t.isClosed = true) (hnext : next ≠ .starting)
    (hrunning : next = .running → t.handle.isSome) (hexiting : next = .exiting → t.handle = none)
    (hlast : next = .closed → t.isClosed = true) : t.Shown := by
  rw [enter_eq] at hlifecycle
  split at hlifecycle
  · next hterminal => constructor <;> simp [hlifecycle, hclosed (hs.closed hterminal)]
  · constructor <;> rw [hlifecycle]
    · exact hrunning
    · intro hfull hnext
      rw [hexiting hnext] at hfull
      cases hfull
    · exact hnext
    · exact hlast

/-- A move keeps what is shown in step with the slot, as far as it does not depend on the run. -/
theorem Shown.move (hs : s.Shown) (hreachable : s.Reachable) (hmove : Move s label t) :
    t.Shown := by
  have hclosed := isClosed_of_move hmove
  cases hmove with
  | equipped _ _ => exact hs.of_enter rfl hclosed (by simp) (fun _ ↦ rfl) (by simp) (by simp)
  | taken _ _ _ _ => exact hs.of_enter rfl hclosed (by simp) (by simp) (fun _ ↦ rfl) (by simp)
  | announced _ hduty _ =>
    have hrequested := hreachable.shutdown.announcing _ hduty
    exact hs.of_enter rfl hclosed (by simp) (by simp) (by simp) (fun _ ↦ hrequested)
  | marked _ _ => exact hs.of_enter rfl hclosed (by simp) (by simp) (by simp) (by simp)
  | cleared _ _ hwarden _ _ =>
    have hsealed := hreachable.shutdown.left (by rw [hwarden]; rfl)
    exact hs.of_enter rfl hclosed (by simp) (by simp) (by simp) (fun _ ↦ hsealed.requested)
  | requested _ _ _ => exact ⟨hs.running, hs.full, hs.started, fun _ ↦ rfl⟩
  | _ => exact ⟨hs.running, hs.full, hs.started, hs.closed⟩

/-- What is shown is in step with the slot, as far as it does not depend on the run. -/
theorem Reachable.shown (hs : s.Reachable) : s.Shown := by
  refine hs.induction (fun _ ↦ ?_) fun _ _ _ hs hshown hmove ↦ hshown.move hs hmove
  constructor <;> simp [created]

/-! ## Which children are marked over -/

/-- No child is marked over before anything happens. -/
theorem not_markedOver_nil (s : Supervisor) (g : Generation) : ¬ MarkedOver s [] g := by
  rintro ⟨before, after, t, heq, -⟩
  simp at heq

/-- A child is marked over in a run with one more label if it was before, or is with this label. -/
theorem markedOver_concat : MarkedOver s (labels ++ [label]) g ↔
    MarkedOver s labels g ∨
      label = .warden ∧ ∃ t, s.run labels = some t ∧ t.warden = .marking ∧ t.handle = some g := by
  constructor
  · rintro ⟨before, after, t, heq, hrun, hwarden, hhandle⟩
    rcases List.eq_nil_or_concat after with rfl | ⟨after', last, rfl⟩
    · obtain ⟨rfl, hlabel⟩ := List.append_inj' heq rfl
      exact .inr ⟨(List.cons.inj hlabel).1, t, hrun, hwarden, hhandle⟩
    · rw [List.concat_eq_append, ← List.cons_append, ← List.append_assoc] at heq
      obtain ⟨rfl, -⟩ := List.append_inj' heq rfl
      exact .inl ⟨before, after', t, rfl, hrun, hwarden, hhandle⟩
  · rintro (⟨before, after, t, rfl, hrun, hwarden, hhandle⟩ | ⟨rfl, t, hrun, hwarden, hhandle⟩)
    · exact ⟨before, after ++ [label], t, by simp, hrun, hwarden, hhandle⟩
    · exact ⟨labels, [], t, rfl, hrun, hwarden, hhandle⟩

/-- A child whose decoders are being spawned was there before a move, or is spawned by it. -/
theorem equipping_of_move (hmove : Move s label t)
    (hduty : t.duty? h = some (.start (.equipping g))) :
    s.duty? h = some (.start (.equipping g)) ∨ g = s.generation + 1 := by
  have hbecomes := becomes_of_move hmove h
  rw [hduty] at hbecomes
  cases hbefore : s.duty? h with
  | none => rw [hbefore] at hbecomes; cases hbecomes
  | some before =>
    rw [hbefore] at hbecomes
    cases hbecomes with
    | same => exact .inl rfl
    | launched => exact .inr rfl

/-- What a move does to the slot and to what is shown, unless the warden marks the slot. -/
inductive Turn (s t : Supervisor) : Prop where
  /-- Nothing. -/
  | kept (hhandle : t.handle = s.handle) (hlifecycle : t.lifecycle = s.lifecycle)
  /-- A child goes into the slot. -/
  | filled {h : Holder} {g : Generation} (hduty : s.duty? h = some (.start (.equipping g)))
      (hhandle : t.handle = some g) (hlifecycle : t.lifecycle = s.lifecycle.enter .running)
  /-- The slot is emptied. -/
  | emptied (hhandle : t.handle = none)
  /-- It is shown that shutdown was requested. -/
  | closed (hlifecycle : t.lifecycle = .closed)

/-- What a move does to the slot and to what is shown, unless the warden marks the slot. -/
theorem turn_of_move (hmove : Move s label t)
    (hother : ¬ (label = .warden ∧ s.warden = .marking)) : Turn s t := by
  cases hmove with
  | equipped hduty _ => exact .filled hduty rfl rfl
  | taken _ _ _ _ => exact .emptied rfl
  | cleared _ _ _ _ _ => exact .emptied rfl
  | announced _ _ _ =>
    refine .closed ?_
    rw [enter_eq]
    split <;> rfl
  | marked _ hwarden => exact absurd ⟨rfl, hwarden⟩ hother
  | _ => exact .kept rfl rfl

/-! ## The runs of a supervisor -/

/-- A child that is in the slot is in nobody's hands. -/
private theorem not_equipping_of_handle (hs : s.Custody) (hhandle : s.handle = some g)
    (h : Holder) : s.duty? h ≠ some (.start (.equipping g)) := by
  intro hduty
  have hthread : s.kept? (.thread h) = some g := by
    rw [kept?, hduty]
    rfl
  have heq := hs.sole .slot (.thread h) g hhandle hthread
  cases heq

private theorem Marks.mark (hmarks : Marks s labels t) (ht : t.Reachable)
    (hrun : s.run labels = some t) (hwarden : t.warden = .marking)
    (hstep : t.step .warden = some u) : Marks s (labels ++ [.warden]) u := by
  have hu : u = { t with
      lifecycle := t.lifecycle.enter .restarting, warden := .starting .requested } := by
    simp only [step, proceedWarden, hwarden] at hstep
    split at hstep
    · cases hstep
    · exact (Option.some.inj hstep).symm
  have hmarked : ∀ g, MarkedOver s (labels ++ [.warden]) g ↔
      MarkedOver s labels g ∨ t.handle = some g := by
    intro g
    rw [markedOver_concat]
    simp [hrun, hwarden]
  have hduties : ∀ h, u.duty? h = t.duty? h := by
    rw [hu]
    exact duties_goTo t (.starting .requested) (by rw [hwarden]; rfl)
  refine ⟨fun g hhandle hopen ↦ ?_, fun g hg ↦ ?_⟩
  · rw [hu] at hhandle hopen ⊢
    rw [hmarked]
    simp only [enter_eq] at hopen ⊢
    split at hopen
    · exact absurd rfl hopen
    · next hlifecycle =>
      rw [if_neg hlifecycle]
      exact ⟨fun _ ↦ .inr hhandle, fun _ ↦ rfl⟩
  · have hgeneration : u.generation = t.generation := by rw [hu]
    simp only [hgeneration, hduties]
    rcases (hmarked g).mp hg with hbefore | hhandle
    · exact hmarks.past g hbefore
    · exact ⟨ht.custody.le_of_kept (k := .slot) hhandle,
        not_equipping_of_handle ht.custody hhandle⟩

private theorem Marks.move (hmarks : Marks s labels t) (hstep : t.step label = some u)
    (hother : ¬ (label = .warden ∧ t.warden = .marking)) (hrun : s.run labels = some t) :
    Marks s (labels ++ [label]) u := by
  have hmove := move_of_step hstep
  have hmarked : ∀ g, MarkedOver s (labels ++ [label]) g ↔ MarkedOver s labels g := by
    intro g
    rw [markedOver_concat, or_iff_left]
    rintro ⟨hlabel, v, hv, hwarden, -⟩
    obtain rfl : t = v := Option.some.inj (hrun.symm.trans hv)
    exact hother ⟨hlabel, hwarden⟩
  refine ⟨fun g hhandle hopen ↦ ?_, fun g hg ↦ ?_⟩
  · rw [hmarked]
    cases turn_of_move hmove hother with
    | kept hsame hlifecycle =>
      rw [hsame] at hhandle
      rw [hlifecycle] at hopen ⊢
      exact hmarks.slot g hhandle hopen
    | @filled h g' hduty hfilled hlifecycle =>
      obtain rfl : g' = g := Option.some.inj (hfilled.symm.trans hhandle)
      have hnot : ¬ MarkedOver s labels g' := fun hmark ↦ (hmarks.past g' hmark).2 h hduty
      rw [hlifecycle, enter_eq] at hopen ⊢
      split at hopen
      · exact absurd rfl hopen
      · next hterminal =>
        rw [if_neg hterminal]
        exact iff_of_false (by simp) hnot
    | emptied hempty =>
      rw [hempty] at hhandle
      cases hhandle
    | closed hlifecycle => exact absurd hlifecycle hopen
  · obtain ⟨hle, hduties⟩ := hmarks.past g ((hmarked g).mp hg)
    refine ⟨Nat.le_trans hle (generation_le_of_move hmove), fun h hduty ↦ ?_⟩
    rcases equipping_of_move hmove hduty with hbefore | hnew
    · exact hduties h hbefore
    · rw [hnew] at hle
      exact Nat.not_succ_le_self _ hle

/-- In every run the children that are shown as being spawned though they are in the slot are those
that were marked over. -/
theorem marks_of_run (hs : s.Reachable) (hempty : s.lifecycle = .running)
    (hrun : s.run labels = some t) : Marks s labels t := by
  refine run_induction (P := Marks s) ?_ (fun labels label t u hrun hmarks hstep ↦ ?_) hrun
  · refine ⟨fun g _ _ ↦ ?_, fun g hg ↦ absurd hg (not_markedOver_nil s g)⟩
    rw [hempty]
    exact iff_of_false (by simp) (not_markedOver_nil s g)
  · by_cases hmark : label = .warden ∧ t.warden = .marking
    · obtain ⟨rfl, hwarden⟩ := hmark
      exact hmarks.mark (hs.trans (reaches_of_run hrun)) hrun hwarden hstep
    · exact hmarks.move hstep hmark hrun

/-- As long as shutdown is not requested, what is shown fits the slot unless the child in the slot
was marked over. -/
theorem showsSlot_iff_not_markedOver {config : Config} {launch : Launch} {equip : Equip}
    {wardenFault : Option IoFault} (hcreate : create config launch equip wardenFault = .ok s)
    (hrun : s.run labels = some t) (hopen : t.isClosed = false) :
    t.ShowsSlot ↔ ¬ ∃ g, t.handle = some g ∧ MarkedOver s labels g := by
  have hs : s.Reachable := ⟨config, launch, equip, wardenFault, s, hcreate, .refl s⟩
  have hshown := (hs.trans (reaches_of_run hrun)).shown
  have hmarks := marks_of_run hs (by rw [create_eq_ok hcreate]; rfl) hrun
  have hnotClosed : t.lifecycle ≠ .closed := by
    intro h
    rw [hshown.closed h] at hopen
    cases hopen
  cases hhandle : t.handle with
  | none =>
    have hrunning : t.lifecycle ≠ .running := by
      intro h
      have hsome := hshown.running h
      rw [hhandle] at hsome
      cases hsome
    simp [ShowsSlot, hhandle, hrunning]
  | some g =>
    have hslot := hmarks.slot g hhandle hnotClosed
    have hexiting := hshown.full (by rw [hhandle]; rfl)
    have hstarted := hshown.started
    cases hlifecycle : t.lifecycle <;> simp_all [ShowsSlot]

/-- A child that the warden puts in the place of one that was stopped is not marked over. -/
theorem showsSlot_of_replaced :
    ∃ labels t, (created {}).run labels = some t ∧ t.handle = some 2 ∧ t.ShowsSlot ∧
      ¬ MarkedOver (created {}) labels 2 := by
  have hcreate : create {} .launched .equipped none = .ok (created {}) := rfl
  have hrun : (created {}).run [.call 0 .stop, .proceed 0, .proceed 0, .warden, .restOver, .warden,
    .warden, .warden, .launch .warden .launched, .equip .warden .equipped] = some _ := rfl
  have hiff := showsSlot_iff_not_markedOver hcreate hrun rfl
  refine ⟨_, _, hrun, rfl, ?shows, fun hmarked ↦ hiff.mp ?shows ⟨2, rfl, hmarked⟩⟩
  exact ⟨⟨fun _ ↦ rfl, fun _ ↦ rfl⟩, by decide⟩

/-- A child that a caller starts while the warden rests is marked over: the warden watches it, and
it is shown as being spawned. -/
theorem not_showsSlot_of_started :
    ∃ s labels t, create {} .launched .equipped none = .ok s ∧ s.run labels = some t ∧
      t.lock = none ∧ t.isClosed = false ∧ t.warden = .watching 2 ∧ t.handle = some 2 ∧
      t.lifecycle = .restarting ∧ ¬ t.ShowsSlot := by
  refine ⟨created {}, [.call 0 .stop, .proceed 0, .proceed 0, .warden, .call 1 .start, .proceed 1,
    .launch (.caller 1) .launched, .equip (.caller 1) .equipped, .restOver, .warden, .warden,
    .warden, .warden, .warden], _, rfl, rfl, rfl, rfl, rfl, rfl, rfl, fun hshows ↦ ?_⟩
  have hempty := hshows.2 (.inr (.inr rfl))
  cases hempty

end

end Sidecar.Supervisor
