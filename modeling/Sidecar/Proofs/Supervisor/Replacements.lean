import Sidecar.Proofs.Supervisor.Watch

/-!
# Counted replacements

The warden counts a replacement whenever a start of its own ends well. Such a start has spawned a
child, or it found one in the slot that a caller had started meanwhile. So the number shown is the
number of children that the warden put into the slot, and one more for each child that it found
there (`counted_of_run`).
-/

namespace Sidecar.Supervisor

/-- How many replacements the warden has put into the slot. -/
def replacements (labels : List Label) : Nat := labels.count (.equip .warden .equipped)

/-- Whether a label lets the warden, about to spawn a replacement, find a child in the slot. -/
def findsChild (s : Supervisor) (label : Label) : Bool :=
  label = .warden ∧ s.warden = .starting .requested ∧ s.isClosed = false ∧ s.handle.isSome

/-- How often the warden, about to spawn a replacement, found a child in the slot. -/
def childrenFound : Supervisor → List Label → Nat
  | _, [] => 0
  | s, label :: labels =>
    (if s.findsChild label then 1 else 0) +
      match s.step label with
      | some t => childrenFound t labels
      | none => 0

/-- At some time of a run a caller's child was in the slot when the warden came to spawn one. -/
def FoundChild (s : Supervisor) (labels : List Label) : Prop :=
  ∃ before after t, labels = before ++ .warden :: after ∧ s.run before = some t ∧
    t.warden = .starting .requested ∧ t.isClosed = false ∧ t.handle.isSome

/-- One while the warden is about to count a replacement. -/
def uncounted (s : Supervisor) : Nat := if s.warden = .counting then 1 else 0

/-- What a label adds to the count in a state. -/
def counts (s : Supervisor) (label : Label) : Nat :=
  (if label = .equip .warden .equipped then 1 else 0) + if s.findsChild label then 1 else 0

section

variable {s t u : Supervisor} {label : Label} {labels : List Label}

/-! ## What a step counts -/

private theorem counts_of_ne (hequip : label ≠ .equip .warden .equipped)
    (hwarden : label ≠ .warden) : s.counts label = 0 := by
  simp [counts, findsChild, hequip, hwarden]

private theorem counts_of_elsewhere (hwarden : s.warden ≠ .starting .requested) :
    s.counts .warden = 0 := by
  simp [counts, findsChild, hwarden]

private theorem uncounted_of_ne (hwarden : s.warden ≠ .counting) : s.uncounted = 0 :=
  if_neg hwarden

private theorem uncounted_of_counting (hwarden : s.warden = .counting) : s.uncounted = 1 :=
  if_pos hwarden

/-- A step of the warden past its counting counts nothing. -/
private theorem counted_of_aside (hstep : s.step label = some t) (hbefore : s.warden ≠ .counting)
    (hafter : t.warden ≠ .counting) (hcounts : s.counts label = 0) :
    t.restarts + t.uncounted = s.restarts + s.uncounted + s.counts label := by
  rw [restarts_of_step hstep fun _ ↦ hbefore, uncounted_of_ne hbefore, uncounted_of_ne hafter,
    hcounts]

/-- A step of the warden to its counting counts one. -/
private theorem counted_of_arrival (hstep : s.step label = some t) (hbefore : s.warden ≠ .counting)
    (hafter : t.warden = .counting) (hcounts : s.counts label = 1) :
    t.restarts + t.uncounted = s.restarts + s.uncounted + s.counts label := by
  rw [restarts_of_step hstep fun _ ↦ hbefore, uncounted_of_ne hbefore,
    uncounted_of_counting hafter, hcounts]

private theorem counted_of_goTo {before after : Warden} (hstep : s.step .warden = some t)
    (hwarden : s.warden = before) (hwarden' : t.warden = after)
    (hbefore : before ≠ .counting := by simp) (hafter : after ≠ .counting := by simp)
    (hrequested : before ≠ .starting .requested := by simp) :
    t.restarts + t.uncounted = s.restarts + s.uncounted + s.counts .warden := by
  subst hwarden hwarden'
  exact counted_of_aside hstep hbefore hafter (counts_of_elsewhere hrequested)

private theorem counted_of_label {before after : Warden} (hstep : s.step label = some t)
    (hwarden : s.warden = before) (hwarden' : t.warden = after)
    (hbefore : before ≠ .counting := by simp) (hafter : after ≠ .counting := by simp)
    (hequip : label ≠ .equip .warden .equipped := by simp) (hlabel : label ≠ .warden := by simp) :
    t.restarts + t.uncounted = s.restarts + s.uncounted + s.counts label := by
  subst hwarden hwarden'
  exact counted_of_aside hstep hbefore hafter (counts_of_ne hequip hlabel)

private theorem counted_of_way (hstep : s.step label = some t) (hway : Way s t label) :
    t.restarts + t.uncounted = s.restarts + s.uncounted + s.counts label := by
  cases hway with
  | startedClosed hclosed before after =>
    refine counted_of_aside hstep (by simp [before]) (by simp [after]) ?_
    simp [counts, findsChild, hclosed]
  | startedEmpty _ hempty before after =>
    refine counted_of_aside hstep (by simp [before]) (by simp [after]) ?_
    simp [counts, findsChild, hempty]
  | startedFull hopen hfull before after =>
    refine counted_of_arrival hstep (by simp [before]) after ?_
    simp [counts, findsChild, before, hopen, hfull]
  | equipped before after =>
    refine counted_of_arrival hstep (by simp [before]) after ?_
    simp [counts, findsChild]
  | counted hrestarts before after =>
    rw [hrestarts, uncounted_of_counting before, uncounted_of_ne (by simp [after]),
      counts_of_elsewhere (by simp [before])]
  | noticedClose _ before after =>
    obtain before | ⟨g, before⟩ := before
    · exact counted_of_label hstep before after
    · exact counted_of_label hstep before after
  | abandoned hlocked before after =>
    exact counted_of_goTo hstep before after (by simp) (by simp) fun heq ↦
      hlocked (Warden.starting.inj heq)
  | cleared _ before after =>
    obtain after | after := after
    · exact counted_of_goTo hstep before after
    · exact counted_of_goTo hstep before after
  | finished before after =>
    obtain before | before := before
    · exact counted_of_goTo hstep before after
    · exact counted_of_goTo hstep before after
  | _ =>
    next before after =>
      first
        | exact counted_of_goTo hstep before after
        | exact counted_of_label hstep before after

/-- What is counted, or about to be, grows by what the label adds. -/
theorem counted_of_step (hstep : s.step label = some t) :
    t.restarts + t.uncounted = s.restarts + s.uncounted + s.counts label := by
  by_cases hwardens : label.isWardens = true
  · exact counted_of_way hstep (way_of_step hstep hwardens)
  · obtain ⟨hwarden, hrestarts⟩ := unwatched_of_step hstep (by simpa using hwardens)
    have hcounts : s.counts label = 0 := by
      apply counts_of_ne <;> rintro rfl <;> exact hwardens rfl
    rw [hrestarts, uncounted, uncounted, hwarden, hcounts]
    rfl

/-! ## What a run counts -/

/-- What is counted in a run is what the warden put into the slot and what it found there. -/
theorem counted_of_run (hrun : s.run labels = some t) :
    t.restarts + t.uncounted =
      s.restarts + s.uncounted + (replacements labels + childrenFound s labels) := by
  induction labels generalizing s with
  | nil =>
    cases hrun
    rfl
  | cons label labels ih =>
    obtain ⟨u, hstep, hrest⟩ := Option.bind_eq_some_iff.mp hrun
    rw [ih hrest, counted_of_step hstep]
    simp only [counts, replacements, childrenFound, hstep, List.count_cons, beq_iff_eq]
    omega

/-- Nothing is added for children found where none was found. -/
theorem childrenFound_eq_zero_iff (hrun : s.run labels = some t) :
    childrenFound s labels = 0 ↔ ¬ FoundChild s labels := by
  induction labels generalizing s with
  | nil =>
    refine ⟨fun _ ↦ ?_, fun _ ↦ rfl⟩
    rintro ⟨before, after, u, heq, -⟩
    simp at heq
  | cons label labels ih =>
    obtain ⟨u, hstep, hrest⟩ := Option.bind_eq_some_iff.mp hrun
    have hsplit : FoundChild s (label :: labels) ↔
        s.findsChild label = true ∨ FoundChild u labels := by
      constructor
      · rintro ⟨before, after, v, heq, hbefore, hfound⟩
        cases before with
        | nil =>
          obtain ⟨rfl, -⟩ := List.cons.inj heq
          cases hbefore
          exact .inl (by simpa [findsChild] using hfound)
        | cons first before =>
          obtain ⟨rfl, rfl⟩ := List.cons.inj heq
          rw [run_cons, hstep] at hbefore
          exact .inr ⟨before, after, v, rfl, hbefore, hfound⟩
      · rintro (hfinds | ⟨before, after, v, rfl, hbefore, hfound⟩)
        · simp only [findsChild, decide_eq_true_eq] at hfinds
          obtain ⟨rfl, hfound⟩ := hfinds
          exact ⟨[], labels, s, rfl, rfl, hfound⟩
        · refine ⟨label :: before, after, v, rfl, ?_, hfound⟩
          rw [run_cons, hstep]
          exact hbefore
    rw [hsplit, not_or, ← ih hrest]
    simp only [childrenFound, hstep, Nat.add_eq_zero_iff]
    cases s.findsChild label <;> simp

/-- A warden that finds a child spawns nothing, and counts one. -/
theorem spawns_nothing_of_findsChild (hfinds : s.findsChild label = true)
    (hstep : s.step label = some t) :
    t.generation = s.generation ∧ t.children = s.children ∧ t.strays = s.strays ∧
      t.handle = s.handle ∧ t.warden = .counting := by
  simp only [findsChild, decide_eq_true_eq] at hfinds
  obtain ⟨rfl, hwarden, hopen, hfull⟩ := hfinds
  have hbegin : s.beginStart .warden = .error (.ok ()) := by simp [beginStart, hopen, hfull]
  simp only [step, proceedWarden, hwarden, hbegin] at hstep
  split at hstep
  · cases hstep
  · cases hstep
    exact ⟨rfl, rfl, rfl, rfl, rfl⟩

/-- What is counted, or about to be, are the replacements that the warden put into the slot and the
children that it found there, for which it spawned nothing. So the count is the number of
replacements where no child was found, and only there. -/
theorem restarts_eq_replacements_iff {config : Config} {launch : Launch} {equip : Equip}
    {wardenFault : Option IoFault} (hcreate : create config launch equip wardenFault = .ok s)
    (hrun : s.run labels = some t) :
    t.restarts + t.uncounted = replacements labels + childrenFound s labels ∧
      (t.restarts + t.uncounted = replacements labels ↔ ¬ FoundChild s labels) ∧
      ∀ (u : Supervisor) (label : Label) (v : Supervisor),
        u.findsChild label = true → u.step label = some v →
        v.generation = u.generation ∧ v.children = u.children ∧ v.strays = u.strays ∧
          v.handle = u.handle ∧ v.warden = .counting := by
  have hcount : t.restarts + t.uncounted = replacements labels + childrenFound s labels := by
    rw [counted_of_run hrun, create_eq_ok hcreate]
    simp [created, uncounted]
  refine ⟨hcount, ?_, fun u label v ↦ spawns_nothing_of_findsChild⟩
  rw [hcount, ← childrenFound_eq_zero_iff hrun]
  omega

/-- A child that was stopped and that the warden replaced is counted once. -/
theorem restarts_of_replaced :
    ∃ labels t, (created {}).run labels = some t ∧ t.restarts = 1 ∧ t.uncounted = 0 ∧
      replacements labels = 1 ∧ ¬ FoundChild (created {}) labels := by
  have hcreate : create {} .launched .equipped none = .ok (created {}) := rfl
  have hrun : (created {}).run [.call 0 .stop, .proceed 0, .proceed 0, .warden, .restOver, .warden,
    .warden, .warden, .launch .warden .launched, .equip .warden .equipped, .warden] = some _ := rfl
  exact ⟨_, _, hrun, rfl, rfl, rfl,
    (restarts_eq_replacements_iff hcreate hrun).2.1.mp rfl⟩

/-- A child that a caller started while the warden rested is counted, though the warden spawned
none. -/
theorem restarts_ne_replacements_of_started :
    ∃ s labels t, create {} .launched .equipped none = .ok s ∧ s.run labels = some t ∧
      t.warden = .watching 2 ∧ t.restarts = 1 ∧ replacements labels = 0 :=
  ⟨created {}, [.call 0 .stop, .proceed 0, .proceed 0, .warden, .call 1 .start, .proceed 1,
    .launch (.caller 1) .launched, .equip (.caller 1) .equipped, .restOver, .warden, .warden,
    .warden, .warden, .warden], _, rfl, rfl, rfl, rfl, rfl⟩

end

end Sidecar.Supervisor
