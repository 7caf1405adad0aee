import Sidecar.Proofs.Supervisor.Latest

/-!
# Children that are alive together

The slot is empty from the moment at which a thread takes a child out of it, and the child lives
until that thread has killed it and waited for it. A start looks at the slot alone. So two children
are alive together where one is spawned while a thread has yet to reap another, and nowhere else
(`alone_iff_not_spawnedOver`).
-/

namespace Sidecar.Supervisor

/-- How many children are alive, which have been spawned and have not been reaped. -/
def liveCount (s : Supervisor) : Nat :=
  (List.range' 1 s.generation).countP s.isLive + s.strays.countP (· ≠ .reaped)

/-- Whether a label spawns a child. -/
def Label.spawns : Label → Bool
  | .launch _ .launched => true
  | .launch _ .uncaptured => true
  | _ => false

/-- At some time of a run a child was spawned, and a thread had yet to reap another one. -/
def SpawnedOver (s : Supervisor) (labels : List Label) : Prop :=
  ∃ before label after t h g, labels = before ++ label :: after ∧ s.run before = some t ∧
    label.spawns = true ∧ t.duty? h = some (.reap g)

section

variable {s t u : Supervisor} {label : Label} {labels : List Label} {g : Generation} {h : Holder}

/-! ## How many children are alive -/

private theorem liveCount_le_of_isLive (hgeneration : t.generation = s.generation)
    (hlive : ∀ g, t.isLive g = true → s.isLive g = true)
    (hstrays : t.strays.countP (· ≠ .reaped) ≤ s.strays.countP (· ≠ .reaped)) :
    t.liveCount ≤ s.liveCount := by
  rw [liveCount, liveCount, hgeneration]
  exact Nat.add_le_add (List.countP_mono_left fun g _ ↦ hlive g) hstrays

private theorem liveCount_le_of_standing (hgeneration : t.generation = s.generation)
    (hstanding : ∀ g, t.standing? g = s.standing? g) (hstrays : t.strays = s.strays) :
    t.liveCount ≤ s.liveCount := by
  refine liveCount_le_of_isLive hgeneration (fun g hlive ↦ ?_) (by rw [hstrays])
  rwa [isLive, ← hstanding]

/-- A child that is reaped is not alive, and the others are as they were. -/
private theorem isLive_of_reaped (hchildren : t.children = s.children.modify g
    ({ · with status := .reaped })) {g' : Generation} (hlive : t.isLive g' = true) :
    s.isLive g' = true := by
  simp only [isLive, standing?, standingAmong?, hchildren, Table.get?_modify] at hlive ⊢
  split at hlive
  · cases hchild : s.children.get? g with
    | none => simp [hchild] at hlive
    | some c => simp [hchild, Child.standing] at hlive
  · exact hlive

/-- A child that is alive counts. -/
theorem liveCount_pos (hs : s.Reachable) (hlive : s.isLive g = true) : 0 < s.liveCount := by
  obtain ⟨k, hkept⟩ := (hs.custody.kept g).mp hlive
  obtain ⟨hpos, hle⟩ := (hs.custody.known g).mp (hs.custody.isSome_of_kept hkept)
  have hmem : g ∈ List.range' 1 s.generation := by
    rw [List.mem_range'_1]
    exact ⟨hpos, Nat.lt_one_add_iff.mpr hle⟩
  exact Nat.add_pos_left (List.countP_pos_iff.mpr ⟨g, hmem, hlive⟩) _

/-- No child is alive where one is about to be spawned and no thread has one to reap. -/
theorem liveCount_eq_zero (hs : s.Reachable) (hduty : s.duty? h = some (.start .launching))
    (hreaped : ∀ h' g, s.duty? h' ≠ some (.reap g)) : s.liveCount = 0 := by
  have hlock := hs.locked.lock_eq hduty
  -- The slot is locked for this start, so there is no other one.
  have hsole : ∀ h' start, s.duty? h' = some (.start start) → start = .launching := by
    intro h' start hstart
    have heq := hlock.symm.trans (hs.locked.lock_eq hstart)
    rw [← Option.some.inj heq, hduty] at hstart
    cases hstart
    rfl
  have hgenerations : ∀ g, ¬ s.isLive g = true := by
    intro g hlive
    obtain ⟨k, hkept⟩ := (hs.custody.kept g).mp hlive
    cases k with
    | slot =>
      have hempty : s.handle = none := hs.locked.empty (by rw [hlock]; rfl)
      rw [kept?, hempty] at hkept
      cases hkept
    | thread h' =>
      obtain ⟨duty, hduty', hchild⟩ := Option.bind_eq_some_iff.mp hkept
      cases duty with
      | start start =>
        rw [hsole h' start hduty'] at hchild
        cases hchild
      | reap g' => exact hreaped h' g' hduty'
      | announce => cases hchild
      | notify => cases hchild
  have hstrays : ∀ status ∈ s.strays, status = .reaped := by
    refine hs.straysReaped.settled fun h' hdiscarding ↦ ?_
    cases hsole h' .discarding hdiscarding
  rw [liveCount, List.countP_eq_zero.mpr fun g _ ↦ hgenerations g, List.countP_eq_zero.mpr]
  intro status hstatus
  simp [hstrays status hstatus]

/-! ## What a step makes of it -/

private theorem liveCount_of_launched {isReplacement : Bool}
    (hgeneration : t.generation = s.generation + 1)
    (hchildren : t.children = s.children.set (s.generation + 1) (.fresh s.config isReplacement))
    (hstrays : t.strays = s.strays) : t.liveCount = s.liveCount + 1 := by
  have hnew : t.isLive (s.generation + 1) = true := by
    rw [isLive, standing?, standingAmong?, hchildren, Table.get?_set_self]
    rfl
  have hold : (List.range' 1 s.generation).countP t.isLive =
      (List.range' 1 s.generation).countP s.isLive := by
    refine List.countP_congr fun g hg ↦ ?_
    have hne : s.generation + 1 ≠ g := by
      have hlt := (List.mem_range'_1.mp hg).2
      rintro rfl
      exact absurd hlt (by rw [Nat.add_comm]; exact Nat.lt_irrefl _)
    rw [isLive, isLive, standing?, standing?, standingAmong?, standingAmong?, hchildren,
      Table.get?_set_of_ne _ _ hne]
  rw [liveCount, liveCount, hgeneration, hstrays, List.range'_1_concat, List.countP_append, hold,
    Nat.add_comm 1, List.countP_singleton, if_pos hnew]
  omega

private theorem liveCount_of_uncaptured (hgeneration : t.generation = s.generation)
    (hchildren : t.children = s.children) (hstrays : t.strays = .running :: s.strays) :
    t.liveCount = s.liveCount + 1 := by
  have hlive : t.isLive = s.isLive := by
    funext g
    rw [isLive, isLive, standing?, standing?, hchildren]
  rw [liveCount, liveCount, hgeneration, hlive, hstrays, List.countP_cons,
    if_pos (by rfl), Nat.add_assoc]

/-- A child that is spawned is one more, and it is spawned by a thread that has locked the slot. -/
theorem liveCount_of_spawns (hstep : s.step label = some t) (hspawns : label.spawns = true) :
    (∃ h, s.duty? h = some (.start .launching)) ∧ t.liveCount = s.liveCount + 1 := by
  cases label with
  | launch h outcome =>
    simp only [step, stepLaunch] at hstep
    split at hstep
    · next hstart =>
      refine ⟨⟨h, duty?_of_startOf? hstart⟩, ?_⟩
      cases outcome with
      | refused cause => cases hspawns
      | uncaptured =>
        obtain ⟨callers, warden, hplaced, -⟩ :=
          placeStart_shift (s := (s.launchChild (h = .warden) .uncaptured).2) .discarding hstart
        cases hplaced.symm.trans (Option.some.inj hstep)
        exact liveCount_of_uncaptured rfl rfl rfl
      | launched =>
        obtain ⟨callers, warden, hplaced, -⟩ :=
          placeStart_shift (s := (s.launchChild (h = .warden) .launched).2)
            (.equipping (s.generation + 1)) hstart
        cases hplaced.symm.trans (Option.some.inj hstep)
        exact liveCount_of_launched rfl rfl rfl
    · cases hstep
  | _ => cases hspawns

/-- Where no child is spawned, no more are alive than before. -/
theorem liveCount_le_of_move (hmove : Move s label t) (hspawns : label.spawns = false) :
    t.liveCount ≤ s.liveCount := by
  cases hmove with
  | talk _ hstanding => exact liveCount_le_of_standing rfl hstanding rfl
  | patrol _ hstanding _ _ => exact liveCount_le_of_standing rfl hstanding rfl
  | uncaptured _ _ => cases hspawns
  | launched _ _ => cases hspawns
  | scrapped _ _ => exact liveCount_le_of_isLive rfl (fun _ ↦ isLive_of_reaped rfl) (Nat.le_refl _)
  | reaped _ _ => exact liveCount_le_of_isLive rfl (fun _ ↦ isLive_of_reaped rfl) (Nat.le_refl _)
  | discarded _ _ =>
    refine liveCount_le_of_isLive rfl (fun _ ↦ id) ?_
    cases s.strays with
    | nil => simp
    | cons status rest => simp [List.countP_cons]
  | _ => exact Nat.le_refl _

/-! ## The runs of a supervisor -/

/-- Where no child is spawned while another is to be reaped, there is never more than one alive. -/
theorem liveCount_le_one_of_run {config : Config}
    (hapart : ¬ SpawnedOver (created config) labels) {before : List Label}
    (hrun : (created config).run before = some t) (hbefore : before <+: labels) :
    t.liveCount ≤ 1 := by
  revert hbefore
  refine run_induction (P := fun before t ↦ before <+: labels → t.liveCount ≤ 1) (fun _ ↦ ?_)
    (fun before label u v hu ih hstep hprefix ↦ ?_) hrun
  · exact Nat.le_of_eq rfl
  · have hreachable := (reachable_created config).run hu
    cases hspawns : label.spawns with
    | false =>
      have hle := ih ((List.prefix_append before [label]).trans hprefix)
      exact (liveCount_le_of_move (move_of_step hstep) hspawns).trans hle
    | true =>
      obtain ⟨⟨h, hduty⟩, hcount⟩ := liveCount_of_spawns hstep hspawns
      obtain ⟨after, rfl⟩ := hprefix
      rw [hcount, liveCount_eq_zero hreachable hduty]
      intro h' g hreap
      exact hapart ⟨before, label, after, u, h', g, by simp, hu, hspawns, hreap⟩

/-- A child that is spawned while another is to be reaped is the second one alive. -/
theorem two_le_liveCount_of_spawnedOver {config : Config}
    (hrun : (created config).run labels = some t)
    (hover : SpawnedOver (created config) labels) :
    ∃ before u, before <+: labels ∧ (created config).run before = some u ∧ 2 ≤ u.liveCount := by
  obtain ⟨before, label, after, u, h, g, rfl, hu, hspawns, hreap⟩ := hover
  have hreachable := (reachable_created config).run hu
  have hlive : u.isLive g = true :=
    (hreachable.custody.kept g).mpr ⟨.thread h, by rw [kept?, hreap]; rfl⟩
  rw [run_append, hu, Option.bind_some] at hrun
  obtain ⟨v, hstep, -⟩ := Option.bind_eq_some_iff.mp hrun
  refine ⟨before ++ [label], v, ⟨after, by simp⟩, run_concat_eq_some.mpr ⟨u, hu, hstep⟩, ?_⟩
  rw [(liveCount_of_spawns hstep hspawns).2]
  exact Nat.succ_le_succ (liveCount_pos hreachable hlive)

/-- At every point of a run at most one child is alive where no child is spawned while a thread has
yet to reap another, and only there. In any case a child that is alive and is not the latest one was
taken out of the slot by a thread that has yet to reap it. -/
theorem alone_iff_not_spawnedOver {config : Config} {launch : Launch} {equip : Equip}
    {wardenFault : Option IoFault} (hcreate : create config launch equip wardenFault = .ok s)
    (hrun : s.run labels = some t) :
    ((∀ before u, before <+: labels → s.run before = some u → u.liveCount ≤ 1) ↔
        ¬ SpawnedOver s labels) ∧
      ∀ g, t.isLive g = true → g ≠ t.generation → ∃ h, t.duty? h = some (.reap g) := by
  cases create_eq_ok hcreate
  refine ⟨⟨fun halone hover ↦ ?_, fun hapart before u hbefore hu ↦ ?_⟩, fun g hlive hne ↦ ?_⟩
  · obtain ⟨before, u, hbefore, hu, htwo⟩ := two_le_liveCount_of_spawnedOver hrun hover
    exact absurd (htwo.trans (halone before u hbefore hu)) (by decide)
  · exact liveCount_le_one_of_run hapart hu hbefore
  · exact (((reachable_created config).run hrun).reaping_of_isLive hlive).resolve_left hne

/-- The child is stopped, and then another one is started. -/
def stopAndStart : List Label :=
  [.call 0 .stop, .proceed 0, .proceed 0, .call 1 .start, .proceed 1,
    .launch (.caller 1) .launched, .equip (.caller 1) .equipped]

/-- A child that is started after the last one was stopped lives alone. -/
theorem alone_of_stopped : ∃ t, (created {}).run stopAndStart = some t ∧ t.handle = some 2 ∧
    t.isLive 2 = true ∧ ¬ SpawnedOver (created {}) stopAndStart := by
  have hcreate : create {} .launched .equipped none = .ok (created {}) := rfl
  have hrun : (created {}).run stopAndStart = some _ := rfl
  have halone : (created {}).holdsAlong stopAndStart (fun _ u ↦ u.liveCount ≤ 1) = true := rfl
  refine ⟨_, hrun, rfl, rfl, (alone_iff_not_spawnedOver hcreate hrun).1.mp ?_⟩
  intro before u hbefore hu
  exact of_decide_eq_true (of_holdsAlong halone hbefore hu)

/-- A caller finds the slot empty and starts a child while the warden has the last one still to
kill. -/
theorem not_alone_of_started : ∃ s labels t, create {} .launched .equipped none = .ok s ∧
    s.run labels = some t ∧ t.warden = .reaping 1 ∧ t.handle = some 2 ∧ t.liveCount = 2 :=
  ⟨created {}, [.endStream 1 .out, .disconnect 1 .out, .report 1 .out, .warden, .exitNoticed,
    .warden, .call 0 .start, .proceed 0, .launch (.caller 0) .launched,
    .equip (.caller 0) .equipped], _, rfl, rfl, rfl, rfl, rfl⟩

end

end Sidecar.Supervisor
