import Sidecar.Proofs.Supervisor.Lock

/-!
# Who has which child

Every child that is not reaped is in one place: in the slot, or in the hands of one thread
(`Custody`). So children change hands, and none is lost. A child that was spawned without its
streams never gets a generation, and is reaped before the slot is unlocked (`StraysReaped`).
-/

namespace Sidecar.Supervisor

/-- A place where a child can be. -/
inductive Keeper where
  | slot
  /-- A thread has it in its hands. -/
  | thread (h : Holder)
  deriving DecidableEq, Repr

/-- The child that is in a place. -/
def kept? (s : Supervisor) : Keeper → Option Generation
  | .slot => s.handle
  | .thread h => (s.duty? h).bind Duty.child?

/-- Whether a child was spawned and is not reaped. -/
def isLive (s : Supervisor) (g : Generation) : Bool := (s.standing? g).any Standing.isLive

/-- Every child that is not reaped is in exactly one place. -/
structure Custody (s : Supervisor) : Prop where
  sole : ∀ k k' g, s.kept? k = some g → s.kept? k' = some g → k = k'
  kept : ∀ g, s.isLive g = true ↔ ∃ k, s.kept? k = some g
  known : ∀ g, (s.standing? g).isSome ↔ 0 < g ∧ g ≤ s.generation

/-- Children without a generation are reaped, but for the latest while it is being discarded. -/
structure StraysReaped (s : Supervisor) : Prop where
  tail : ∀ status ∈ s.strays.tail, status = .reaped
  settled : (∀ h, s.duty? h ≠ some (.start .discarding)) → ∀ status ∈ s.strays, status = .reaped

/-- What a move can do to the children and to where they are. -/
inductive Passing (s t : Supervisor) : Prop where
  /-- Nothing. -/
  | quiet (hkept : ∀ k, t.kept? k = s.kept? k) (hstanding : ∀ g, t.standing? g = s.standing? g)
      (hgeneration : t.generation = s.generation)
  /-- A child is spawned. -/
  | spawned {k : Keeper} (isReplacement : Bool) (hfree : s.kept? k = none)
      (hkept : ∀ j, t.kept? j = if j = k then some (s.generation + 1) else s.kept? j)
      (hstanding : ∀ g, t.standing? g =
        if g = s.generation + 1 then some ⟨true, isReplacement⟩ else s.standing? g)
      (hgeneration : t.generation = s.generation + 1)
  /-- A child goes from one place to another. -/
  | passed {k l : Keeper} {g : Generation} (hold : s.kept? k = some g)
      (hfree : s.kept? l = none)
      (hkept : ∀ j, t.kept? j = if j = l then some g else if j = k then none else s.kept? j)
      (hstanding : ∀ g, t.standing? g = s.standing? g)
      (hgeneration : t.generation = s.generation)
  /-- A child is reaped. -/
  | reaped {k : Keeper} {g : Generation} (hold : s.kept? k = some g)
      (hkept : ∀ j, t.kept? j = if j = k then none else s.kept? j)
      (hstanding : ∀ g', t.standing? g' =
        if g' = g then (s.standing? g).map ({ · with isLive := false }) else s.standing? g')
      (hgeneration : t.generation = s.generation)

section

variable {s t : Supervisor} {label : Label} {h : Holder} {duty : Option Duty}

/-! ## Children that change hands -/

private theorem kept?_of_duties (hduties : ∀ h', t.duty? h' = if h' = h then duty else s.duty? h')
    (hhandle : t.handle = s.handle) (k : Keeper) :
    t.kept? k = if k = .thread h then duty.bind Duty.child? else s.kept? k := by
  cases k with
  | slot => exact hhandle
  | thread h' =>
    simp only [kept?, hduties, Keeper.thread.injEq]
    split <;> rfl

private theorem Passing.of_same (hduties : ∀ h, t.duty? h = s.duty? h)
    (hhandle : t.handle = s.handle) (hstanding : ∀ g, t.standing? g = s.standing? g)
    (hgeneration : t.generation = s.generation) : Passing s t := by
  refine .quiet (fun k ↦ ?_) hstanding hgeneration
  cases k with
  | slot => exact hhandle
  | thread h => simp only [kept?, hduties]

private theorem Passing.of_child_eq
    (hduties : ∀ h', t.duty? h' = if h' = h then duty else s.duty? h')
    (hchild : duty.bind Duty.child? = (s.duty? h).bind Duty.child?)
    (hhandle : t.handle = s.handle) (hstanding : ∀ g, t.standing? g = s.standing? g)
    (hgeneration : t.generation = s.generation) : Passing s t := by
  refine .quiet (fun k ↦ ?_) hstanding hgeneration
  rw [kept?_of_duties hduties hhandle]
  split
  · next hk => rw [hk, hchild]; rfl
  · rfl

private theorem Passing.of_spawn {isReplacement : Bool}
    (hduty : (s.duty? h).bind Duty.child? = none)
    (hduties : ∀ h', t.duty? h' =
      if h' = h then some (.start (.equipping (s.generation + 1))) else s.duty? h')
    (hhandle : t.handle = s.handle)
    (hchildren : t.children = s.children.set (s.generation + 1) (.fresh s.config isReplacement))
    (hgeneration : t.generation = s.generation + 1) : Passing s t := by
  refine .spawned (k := .thread h) isReplacement hduty (kept?_of_duties hduties hhandle)
    (fun g ↦ ?_) hgeneration
  simp only [standing?, standingAmong?, hchildren, Table.get?_set, eq_comm]
  split <;> rfl

private theorem standing?_reaped (children : Table Generation Child) (g g' : Generation) :
    standingAmong? (children.modify g ({ · with status := .reaped })) g' =
      if g' = g then (standingAmong? children g).map ({ · with isLive := false })
      else standingAmong? children g' := by
  simp only [standingAmong?, Table.get?_modify]
  by_cases hg : g = g'
  · rw [if_pos hg, if_pos hg.symm]
    cases children.get? g <;> rfl
  · rw [if_neg hg, if_neg (Ne.symm hg)]

private theorem Passing.of_reap {g : Generation} (hduty : (s.duty? h).bind Duty.child? = some g)
    (hduties : ∀ h', t.duty? h' = if h' = h then none else s.duty? h')
    (hhandle : t.handle = s.handle)
    (hchildren : t.children = s.children.modify g ({ · with status := .reaped }))
    (hgeneration : t.generation = s.generation) : Passing s t := by
  refine .reaped (k := .thread h) hduty (kept?_of_duties hduties hhandle) (fun g' ↦ ?_) hgeneration
  rw [standing?, hchildren]
  exact standing?_reaped s.children g g'

private theorem Passing.of_take {g : Generation} {taken : Duty} (hhandle : s.handle = some g)
    (hduty : s.duty? h = none) (htaken : taken.child? = some g)
    (hduties : ∀ h', t.duty? h' = if h' = h then some taken else s.duty? h')
    (hempty : t.handle = none) (hstanding : ∀ g, t.standing? g = s.standing? g)
    (hgeneration : t.generation = s.generation) : Passing s t := by
  refine .passed (k := .slot) (l := .thread h) hhandle ?_ (fun k ↦ ?_) hstanding hgeneration
  · simp only [kept?, hduty]
    rfl
  · cases k with
    | slot => exact hempty
    | thread h' =>
      simp only [kept?, hduties, Keeper.thread.injEq, reduceCtorEq, if_false]
      split
      · exact htaken
      · rfl

/-- A move takes no generation back. -/
theorem generation_le_of_move (hmove : Move s label t) : s.generation ≤ t.generation := by
  cases hmove with
  | launched _ _ => exact Nat.le_succ _
  | _ => exact Nat.le_refl _

/-- What a move does to the children and to where they are. -/
theorem passing_of_move (hs : s.Locked) (hmove : Move s label t) : Passing s t := by
  cases hmove with
  | talk hduty hstanding _ => exact .of_same hduty rfl hstanding rfl
  | patrol hduty hstanding _ _ => exact .of_same (duties_goTo s _ hduty) rfl hstanding rfl
  | locked _ _ _ hduty hshift =>
    exact .of_child_eq hshift.duties (by rw [hduty]; rfl) rfl (fun _ ↦ rfl) rfl
  | refused hduty hshift =>
    exact .of_child_eq hshift.duties (by rw [hduty]; rfl) rfl (fun _ ↦ rfl) rfl
  | uncaptured hduty hshift =>
    exact .of_child_eq hshift.duties (by rw [hduty]; rfl) rfl (fun _ ↦ rfl) rfl
  | launched hduty hshift =>
    exact .of_spawn (by rw [hduty]; rfl) hshift.duties rfl rfl rfl
  | unequipped hduty hshift =>
    exact .of_child_eq hshift.duties (by rw [hduty]; rfl) rfl (fun _ ↦ rfl) rfl
  | @equipped h g _ _ hduty hshift =>
    have hempty : s.handle = none := hs.empty (by rw [hs.lock_eq hduty]; rfl)
    refine .passed (k := .thread h) (l := .slot) (g := g) (by simp only [kept?, hduty]; rfl)
      hempty (fun k ↦ ?_) (fun _ ↦ rfl) rfl
    cases k with
    | slot => rfl
    | thread h' =>
      have hduty' := hshift.duties h'
      simp only [kept?, Keeper.thread.injEq, reduceCtorEq, if_false, duty?] at hduty' ⊢
      rw [hduty']
      split <;> rfl
  | discarded hduty hshift =>
    exact .of_child_eq hshift.duties (by rw [hduty]; rfl) rfl (fun _ ↦ rfl) rfl
  | scrapped hduty hshift => exact .of_reap (by rw [hduty]; rfl) hshift.duties rfl rfl rfl
  | taken _ hhandle hduty hshift =>
    exact .of_take hhandle hduty rfl hshift.duties rfl (fun _ ↦ rfl) rfl
  | reaped hduty hshift => exact .of_reap (by rw [hduty]; rfl) hshift.duties rfl rfl rfl
  | requested _ hduty hshift =>
    exact .of_child_eq hshift.duties (by rw [hduty]; rfl) rfl (fun _ ↦ rfl) rfl
  | announced _ hduty hshift =>
    exact .of_child_eq hshift.duties (by rw [hduty]; rfl) rfl (fun _ ↦ rfl) rfl
  | notified hduty hshift =>
    exact .of_child_eq hshift.duties (by rw [hduty]; rfl) rfl (fun _ ↦ rfl) rfl
  | counted hwarden =>
    exact .of_same (duties_goTo s .looking (by rw [hwarden]; rfl)) rfl (fun _ ↦ rfl) rfl
  | left _ hduty => exact .of_same (duties_goTo s .closing hduty.symm) rfl (fun _ ↦ rfl) rfl
  | marked _ hwarden =>
    exact .of_same (duties_goTo s (.starting .requested) (by rw [hwarden]; rfl)) rfl
      (fun _ ↦ rfl) rfl
  | cleared _ hhandle hwarden hduty _ =>
    have hfree : s.duty? .warden = none := by rw [duty?, dutyAmong?, hwarden]; rfl
    have hduties := duties_warden s.callers s.warden
    exact .of_take hhandle hfree rfl (fun h' ↦ (hduties _ h').trans (by rw [hduty]; rfl)) rfl
      (fun _ ↦ rfl) rfl

/-! ## Every child is in one place -/

/-- A child that is kept somewhere is known. -/
theorem Custody.isSome_of_kept (hs : s.Custody) {k : Keeper} {g : Generation}
    (hkept : s.kept? k = some g) : (s.standing? g).isSome := by
  have hlive := (hs.kept g).mpr ⟨k, hkept⟩
  cases hg : s.standing? g with
  | none => rw [isLive, hg] at hlive; cases hlive
  | some standing => rfl

/-- A child that is kept somewhere is not younger than the latest one. -/
theorem Custody.le_of_kept (hs : s.Custody) {k : Keeper} {g : Generation}
    (hkept : s.kept? k = some g) : g ≤ s.generation :=
  ((hs.known g).mp (hs.isSome_of_kept hkept)).2

private theorem Custody.spawned (hs : s.Custody) {k : Keeper} {isReplacement : Bool}
    (hkept : ∀ j, t.kept? j = if j = k then some (s.generation + 1) else s.kept? j)
    (hstanding : ∀ g, t.standing? g =
      if g = s.generation + 1 then some ⟨true, isReplacement⟩ else s.standing? g)
    (hfree : s.kept? k = none) (hgeneration : t.generation = s.generation + 1) : t.Custody := by
  have hnew : ∀ j g, s.kept? j = some g → g ≠ s.generation + 1 := by
    intro j g hj
    exact Nat.ne_of_lt (Nat.lt_succ_of_le (hs.le_of_kept hj))
  refine ⟨fun j j' g hj hj' ↦ ?_, fun g ↦ ?_, fun g ↦ ?_⟩
  · rw [hkept] at hj hj'
    by_cases hjk : j = k <;> by_cases hjk' : j' = k
    · rw [hjk, hjk']
    · rw [if_pos hjk] at hj
      rw [if_neg hjk'] at hj'
      exact absurd (Option.some.inj hj).symm (hnew j' g hj')
    · rw [if_neg hjk] at hj
      rw [if_pos hjk'] at hj'
      exact absurd (Option.some.inj hj').symm (hnew j g hj)
    · rw [if_neg hjk] at hj
      rw [if_neg hjk'] at hj'
      exact hs.sole j j' g hj hj'
  · rw [isLive, hstanding]
    by_cases hg : g = s.generation + 1
    · rw [if_pos hg]
      exact ⟨fun _ ↦ ⟨k, by rw [hkept, if_pos rfl, hg]⟩, fun _ ↦ rfl⟩
    · rw [if_neg hg]
      refine (hs.kept g).trans (exists_congr fun j ↦ ⟨fun hj ↦ ?_, fun hj ↦ ?_⟩)
      · have hjk : j ≠ k := by
          intro hjk
          rw [hjk, hfree] at hj
          cases hj
        rw [hkept, if_neg hjk, hj]
      · rw [hkept] at hj
        split at hj
        · exact absurd (Option.some.inj hj).symm hg
        · exact hj
  · rw [hstanding, hgeneration]
    by_cases hg : g = s.generation + 1
    · rw [if_pos hg]
      exact ⟨fun _ ↦ ⟨hg ▸ Nat.succ_pos _, Nat.le_of_eq hg⟩, fun _ ↦ rfl⟩
    · rw [if_neg hg, hs.known g]
      have hle : g ≤ s.generation + 1 → g ≤ s.generation :=
        fun h ↦ Nat.le_of_lt_succ (Nat.lt_of_le_of_ne h hg)
      exact and_congr_right fun _ ↦ ⟨Nat.le_succ_of_le, hle⟩

private theorem Custody.passed (hs : s.Custody) {k k' : Keeper} {g : Generation}
    (hold : s.kept? k = some g) (hfree : s.kept? k' = none)
    (hkept : ∀ j, t.kept? j = if j = k' then some g else if j = k then none else s.kept? j)
    (hstanding : ∀ g, t.standing? g = s.standing? g) (hgeneration : t.generation = s.generation) :
    t.Custody := by
  -- Afterwards whoever keeps a child kept it before, or is `k'` and has it from `k`.
  have hbefore : ∀ j g', t.kept? j = some g' →
      (j = k' ∧ g' = g) ∨ (j ≠ k' ∧ g' ≠ g ∧ s.kept? j = some g') := by
    intro j g' hj
    rw [hkept] at hj
    split at hj
    · next hjk' => exact .inl ⟨hjk', (Option.some.inj hj).symm⟩
    · next hjk' =>
      split at hj
      · cases hj
      · next hjk =>
        refine .inr ⟨hjk', ?_, hj⟩
        intro hg
        exact hjk (hs.sole j k g (hg ▸ hj) hold)
  refine ⟨fun j j' g' hj hj' ↦ ?_, fun g' ↦ ?_, fun g' ↦ ?_⟩
  · rcases hbefore j g' hj with ⟨h, hg⟩ | ⟨_, hg, h⟩ <;>
      rcases hbefore j' g' hj' with ⟨h', hg'⟩ | ⟨_, hg', h'⟩
    · rw [h, h']
    · exact absurd hg hg'
    · exact absurd hg' hg
    · exact hs.sole j j' g' h h'
  · rw [isLive, hstanding]
    refine (hs.kept g').trans ⟨?_, ?_⟩
    · rintro ⟨j, hj⟩
      by_cases hg : g' = g
      · exact ⟨k', by rw [hkept, if_pos rfl, hg]⟩
      · refine ⟨j, ?_⟩
        have hjk' : j ≠ k' := by
          intro h
          rw [h, hfree] at hj
          cases hj
        have hjk : j ≠ k := by
          intro h
          rw [h, hold] at hj
          exact hg (Option.some.inj hj).symm
        rw [hkept, if_neg hjk', if_neg hjk, hj]
    · rintro ⟨j, hj⟩
      rcases hbefore j g' hj with ⟨_, hg⟩ | ⟨_, _, h⟩
      · exact ⟨k, by rw [hold, hg]⟩
      · exact ⟨j, h⟩
  · rw [hstanding, hgeneration]
    exact hs.known g'

private theorem Custody.reaped (hs : s.Custody) {k : Keeper} {g : Generation}
    (hold : s.kept? k = some g) (hkept : ∀ j, t.kept? j = if j = k then none else s.kept? j)
    (hstanding : ∀ g', t.standing? g' =
      if g' = g then (s.standing? g).map ({ · with isLive := false }) else s.standing? g')
    (hgeneration : t.generation = s.generation) : t.Custody := by
  have hbefore : ∀ j g', t.kept? j = some g' ↔ g' ≠ g ∧ s.kept? j = some g' := by
    intro j g'
    rw [hkept]
    split
    · next hjk =>
      rw [hjk, hold]
      simp [eq_comm]
    · next hjk =>
      refine ⟨fun hj ↦ ⟨?_, hj⟩, And.right⟩
      intro hg
      exact hjk (hs.sole j k g (hg ▸ hj) hold)
  refine ⟨fun j j' g' hj hj' ↦ ?_, fun g' ↦ ?_, fun g' ↦ ?_⟩
  · exact hs.sole j j' g' ((hbefore j g').mp hj).2 ((hbefore j' g').mp hj').2
  · simp only [hbefore]
    rw [isLive, hstanding]
    by_cases hg : g' = g
    · rw [if_pos hg]
      cases s.standing? g <;> simp [hg]
    · rw [if_neg hg]
      simp only [ne_eq, hg, not_false_eq_true, true_and]
      exact hs.kept g'
  · rw [hstanding, hgeneration]
    split
    · next hg =>
      rw [hg, Option.isSome_map]
      exact hs.known g
    · exact hs.known g'

/-- Children that change hands stay in one place each. -/
theorem Custody.passing (hs : s.Custody) (hpassing : Passing s t) : t.Custody := by
  cases hpassing with
  | quiet hkept hstanding hgeneration =>
    refine ⟨fun k k' g ↦ ?_, fun g ↦ ?_, fun g ↦ ?_⟩
    · rw [hkept, hkept]
      exact hs.sole k k' g
    · simp only [isLive, hstanding, hkept]
      exact hs.kept g
    · rw [hstanding, hgeneration]
      exact hs.known g
  | spawned isReplacement hfree hkept hstanding hgeneration =>
    exact hs.spawned hkept hstanding hfree hgeneration
  | passed hold hfree hkept hstanding hgeneration =>
    exact hs.passed hold hfree hkept hstanding hgeneration
  | reaped hold hkept hstanding hgeneration => exact hs.reaped hold hkept hstanding hgeneration

/-- A child that is not alive never comes back to life. -/
theorem Passing.not_isLive (hpassing : Passing s t) {g : Generation} (hlive : s.isLive g = false)
    (hle : g ≤ s.generation) : t.isLive g = false ∧ g ≤ t.generation := by
  cases hpassing with
  | quiet _ hstanding hgeneration =>
    exact ⟨by rwa [isLive, hstanding], by rwa [hgeneration]⟩
  | spawned _ _ _ hstanding hgeneration =>
    refine ⟨?_, by rw [hgeneration]; exact Nat.le_succ_of_le hle⟩
    rwa [isLive, hstanding, if_neg (Nat.ne_of_lt (Nat.lt_succ_of_le hle))]
  | passed _ _ _ hstanding hgeneration =>
    exact ⟨by rwa [isLive, hstanding], by rwa [hgeneration]⟩
  | @reaped _ g' _ _ hstanding hgeneration =>
    refine ⟨?_, by rwa [hgeneration]⟩
    rw [isLive, hstanding]
    split
    · cases s.standing? g' <;> rfl
    · exact hlive

/-- A child that is reaped is not alive. -/
theorem not_isLive_of_reap {g : Generation}
    (hchildren : t.children = s.children.modify g ({ · with status := .reaped })) :
    t.isLive g = false := by
  rw [isLive, standing?, hchildren, standing?_reaped, if_pos rfl]
  cases standingAmong? s.children g <;> rfl

/-! ## Children without a generation -/

private theorem StraysReaped.of_same (hs : s.StraysReaped) (hstrays : t.strays = s.strays)
    (hduties : ∀ h, s.duty? h = some (.start .discarding) → t.duty? h = some (.start .discarding)) :
    t.StraysReaped := by
  refine ⟨?_, fun hnone ↦ ?_⟩
  · rw [hstrays]
    exact hs.tail
  · rw [hstrays]
    exact hs.settled fun h hduty ↦ hnone h (hduties h hduty)

private theorem StraysReaped.of_duties (hs : s.StraysReaped) {before : Option Duty}
    (hduty : s.duty? h = before) (hbefore : before ≠ some (.start .discarding))
    (hduties : ∀ h', t.duty? h' = if h' = h then duty else s.duty? h')
    (hstrays : t.strays = s.strays) : t.StraysReaped := by
  refine hs.of_same hstrays fun h' hh' ↦ ?_
  have hne : h' ≠ h := by
    intro heq
    rw [heq, hduty] at hh'
    exact hbefore hh'
  rw [hduties, if_neg hne, hh']

/-- A move leaves at most the child that is being discarded. -/
theorem StraysReaped.move (hs : s.StraysReaped) (hlocked : s.Locked) (hmove : Move s label t) :
    t.StraysReaped := by
  cases hmove with
  | talk hduty _ _ => exact hs.of_same rfl fun h hh ↦ (hduty h).trans hh
  | patrol hduty _ _ _ => exact hs.of_same rfl fun h hh ↦ (duties_goTo s _ hduty h).trans hh
  | locked _ _ _ hduty hshift => exact hs.of_duties hduty (by simp) hshift.duties rfl
  | refused hduty hshift => exact hs.of_duties hduty (by simp) hshift.duties rfl
  | @uncaptured h _ _ hduty hshift =>
    -- The slot is locked for this start, so no other one is discarding a child.
    have hsettled : ∀ h', s.duty? h' ≠ some (.start .discarding) := by
      intro h' hh'
      have heq := (hlocked.lock_eq hduty).symm.trans (hlocked.lock_eq hh')
      rw [← Option.some.inj heq, hduty] at hh'
      cases hh'
    refine ⟨hs.settled hsettled, fun hnone ↦ absurd ?_ (hnone h)⟩
    exact (hshift.duties h).trans (if_pos rfl)
  | launched hduty hshift => exact hs.of_duties hduty (by simp) hshift.duties rfl
  | unequipped hduty hshift => exact hs.of_duties hduty (by simp) hshift.duties rfl
  | equipped hduty hshift => exact hs.of_duties hduty (by simp) hshift.duties rfl
  | discarded _ _ =>
    refine ⟨hs.tail, fun _ status hstatus ↦ ?_⟩
    cases hstatus with
    | head => rfl
    | tail _ hmem => exact hs.tail status hmem
  | scrapped hduty hshift => exact hs.of_duties hduty (by simp) hshift.duties rfl
  | taken _ _ hduty hshift => exact hs.of_duties hduty (by simp) hshift.duties rfl
  | reaped hduty hshift => exact hs.of_duties hduty (by simp) hshift.duties rfl
  | requested _ hduty hshift => exact hs.of_duties hduty (by simp) hshift.duties rfl
  | announced _ hduty hshift => exact hs.of_duties hduty (by simp) hshift.duties rfl
  | notified hduty hshift => exact hs.of_duties hduty (by simp) hshift.duties rfl
  | counted hwarden =>
    exact hs.of_same rfl fun h hh ↦
      (duties_goTo s .looking (by rw [hwarden]; rfl) h).trans hh
  | left _ hduty => exact hs.of_same rfl fun h hh ↦ (duties_goTo s .closing hduty.symm h).trans hh
  | marked _ hwarden =>
    exact hs.of_same rfl fun h hh ↦
      (duties_goTo s (.starting .requested) (by rw [hwarden]; rfl) h).trans hh
  | cleared _ _ hwarden _ _ =>
    exact hs.of_duties (h := .warden) (by rw [duty?, dutyAmong?, hwarden]) (by simp [Warden.duty?])
      (duties_warden s.callers s.warden _) rfl

/-! ## Every supervisor that can be reached -/

private theorem standing?_created (config : Config) (g : Generation) :
    (created config).standing? g = if g = 1 then some ⟨true, false⟩ else none := by
  simp only [standing?, standingAmong?, created, Table.get?_set, eq_comm, Table.get?_empty]
  split <;> rfl

private theorem kept?_created (config : Config) (k : Keeper) :
    (created config).kept? k = if k = .slot then some 1 else none := by
  cases k with
  | slot => rfl
  | thread h => rw [kept?, duty?_created]; rfl

private theorem custody_created (config : Config) : (created config).Custody := by
  refine ⟨fun k k' g hk hk' ↦ ?_, fun g ↦ ?_, fun g ↦ ?_⟩
  · rw [kept?_created] at hk hk'
    split at hk
    · next heq =>
      split at hk'
      · next heq' => rw [heq, heq']
      · cases hk'
    · cases hk
  · rw [isLive, standing?_created]
    simp only [kept?_created]
    by_cases hg : g = 1
    · rw [if_pos hg]
      exact ⟨fun _ ↦ ⟨.slot, by rw [if_pos rfl, hg]⟩, fun _ ↦ rfl⟩
    · rw [if_neg hg]
      simp only [Option.any_none, Bool.false_eq_true, false_iff, not_exists]
      intro k
      split
      · simpa using Ne.symm hg
      · simp
  · rw [standing?_created]
    by_cases hg : g = 1
    · rw [if_pos hg, hg]
      exact ⟨fun _ ↦ ⟨Nat.one_pos, Nat.le_refl 1⟩, fun _ ↦ rfl⟩
    · rw [if_neg hg]
      simp only [Option.isSome_none, Bool.false_eq_true, false_iff]
      exact fun h ↦ hg (Nat.le_antisymm h.2 h.1)

private theorem straysReaped_created (config : Config) : (created config).StraysReaped := by
  constructor <;> simp [created]

/-- Every child that is not reaped is in one place. -/
theorem Reachable.custody (hs : s.Reachable) : s.Custody :=
  hs.induction custody_created fun _ _ _ hs hcustody hmove ↦
    hcustody.passing (passing_of_move hs.locked hmove)

/-- Every child without a generation is reaped, but for one that is being discarded. -/
theorem Reachable.straysReaped (hs : s.Reachable) : s.StraysReaped :=
  hs.induction straysReaped_created fun _ _ _ hs hstrays hmove ↦ hstrays.move hs.locked hmove

/-- A child that is there is not younger than the latest one. -/
theorem Reachable.le_of_child (hs : s.Reachable) {g : Generation} {c : Child}
    (hchild : s.children.get? g = some c) : g ≤ s.generation := by
  have hstanding : s.standing? g = some c.standing := by
    rw [standing?, standingAmong?, hchild]
    rfl
  exact ((hs.custody.known g).mp (by rw [hstanding]; rfl)).2

/-- The child in the slot is there. -/
theorem Reachable.child_of_handle (hs : s.Reachable) {g : Generation}
    (hhandle : s.handle = some g) : ∃ c, s.children.get? g = some c := by
  have hknown := hs.custody.isSome_of_kept (k := .slot) hhandle
  rw [standing?, standingAmong?, Option.isSome_map] at hknown
  exact Option.isSome_iff_exists.mp hknown

end

end Sidecar.Supervisor
