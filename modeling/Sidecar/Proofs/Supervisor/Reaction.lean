import Sidecar.Proofs.Supervisor.Tenure

/-!
# What the warden does when a child has ended

The warden notices the end of a child that it watches. By the time that it goes to take the child
out of the slot somebody else may have done so and may have started another one. Until the warden
looks into the slot again it does nothing to any other child (`spares_of_reaction`,
`keeps_slot_of_reaction`), and it never notices the end of the same child twice (`Notices.once`).
-/

namespace Sidecar.Supervisor

/-- The child whose end the warden notices by a label. -/
def noticed? (s : Supervisor) : Label → Option Generation
  | .exitNoticed =>
    match s.warden with
    | .watching g => some g
    | _ => none
  | _ => none

/-- The children whose ends the warden has noticed in the course of a run. -/
def noticed (s : Supervisor) (labels : List Label) : List Generation :=
  s.seen (fun u label _ ↦ u.noticed? label) labels

/-- The warden reacts to the end of a child: it has noticed it, and has not come back to look into
the slot since. -/
inductive Reacts (s : Supervisor) (g : Generation) : List Label → Supervisor → Prop where
  | noticed {labels : List Label} {t u : Supervisor} (hrun : s.run labels = some t)
      (hwarden : t.warden = .watching g) (hstep : t.step .exitNoticed = some u) :
      Reacts s g (labels ++ [.exitNoticed]) u
  | goesOn {labels : List Label} {label : Label} {t u : Supervisor} (hreacts : Reacts s g labels t)
      (hstep : t.step label = some u) (hback : u.warden ≠ .looking) :
      Reacts s g (labels ++ [label]) u

/-- Whether the warden reacts to the end of a child where it stands. -/
def Warden.reactsTo (g : Generation) : Warden → Prop
  | .reclaiming g' => g' = g
  | .reaping g' => g' = g
  | .draining g' => g' = g
  | .checking => True
  | .marking => True
  | .starting _ => True
  | .counting => True
  | _ => False

/-- What holds of the children whose ends the warden has noticed. -/
structure Notices (s : Supervisor) (labels : List Label) (t : Supervisor) : Prop where
  /-- The warden watches, and takes out, what has been in the slot. -/
  watched : ∀ g, t.warden = .watching g ∨ t.warden = .reclaiming g → g ∈ s.entries labels
  /-- A child whose end was noticed is about to be taken out, or is out. -/
  gone : ∀ g ∈ s.noticed labels,
    t.warden = .reclaiming g ∨ g ∈ (s.departures labels).map Prod.fst
  /-- The warden has not noticed the end of the child that it watches. -/
  unnoticed : ∀ g, t.warden = .watching g → g ∉ s.noticed labels
  once : (s.noticed labels).Nodup

section

variable {s t u : Supervisor} {label : Label} {labels : List Label} {g : Generation}

/-! ## The reaction to the end of a child -/

/-- Where the warden stands while it reacts to the end of a child. -/
theorem Reacts.reactsTo (hreacts : Reacts s g labels t) : t.warden.reactsTo g := by
  induction hreacts with
  | noticed hrun hwarden hstep =>
    cases way_of_step hstep rfl with
    | noticedExit before after =>
      rw [after]
      exact Warden.watching.inj (before.symm.trans hwarden)
  | @goesOn labels label t u hreacts hstep hback ih =>
    cases hwardens : label.isWardens with
    | false => rwa [(unwatched_of_step hstep hwardens).warden]
    | true =>
      cases way_of_step hstep hwardens with
      | noticedClose _ before _ =>
        obtain before | ⟨_, before⟩ := before <;> rw [before] at ih <;> exact ih.elim
      | cleared _ before _ =>
        rw [before] at ih
        exact ih.elim
      | finished before _ =>
        obtain before | before := before <;> rw [before] at ih <;> exact ih.elim
      | _ =>
        next before after =>
          rw [before] at ih
          rw [after]
          first
            | exact ih
            | trivial

/-- While the warden reacts to the end of a child it takes no other child out of the slot. -/
theorem keeps_slot_of_reaction (hs : t.Reachable) (hreacts : t.warden.reactsTo g)
    (hwardens : label.isWardens = true) (hstep : t.step label = some u) {g' : Generation}
    (hne : g' ≠ g) (hhandle : t.handle = some g') : u.handle = some g' := by
  cases turnover_of_step hs.locked hstep with
  | kept hkept => exact hkept.trans hhandle
  | entered hempty => cases hempty.symm.trans hhandle
  | @left taker g'' hleft _ htaker hduty =>
    exfalso
    obtain rfl : g'' = g' := Option.some.inj (hleft.symm.trans hhandle)
    cases label with
    | warden =>
      cases hwarden : t.warden with
      | reclaiming g₀ =>
        rw [hwarden] at hreacts
        obtain rfl : g₀ = g := hreacts
        simp only [step, proceedWarden, hwarden, hhandle, Option.some.injEq, hne, if_false] at hstep
        split at hstep
        · cases hstep
        · simp only [taker?, hwarden] at htaker
          cases htaker
          cases hstep
          cases hduty
      | closing =>
        rw [hwarden] at hreacts
        exact hreacts
      | _ =>
        simp only [taker?, hwarden] at htaker
        cases htaker
    | proceed => cases hwardens
    | _ => cases htaker

private theorem children_of_request (hpost : t.warden = .starting .requested)
    (hstep : t.proceedWarden = some u) : u.children = t.children := by
  simp only [proceedWarden, hpost] at hstep
  split at hstep
  · cases hstep
  · split at hstep
    · next result _ =>
      cases hstep
      cases result <;> rfl
    · next v hbegin =>
      cases hstep
      unfold beginStart at hbegin
      repeat' split at hbegin
      all_goals cases hbegin
      rfl

private theorem spares_of_proceed (hreacts : t.warden.reactsTo g) (hstep : t.proceedWarden = some u)
    {g' : Generation} (hne : g' ≠ g) :
    u.children.get? g' = t.children.get? g' ∨
      ∃ cause, t.warden = .starting (.scrapping g' cause) := by
  cases hpost : t.warden with
  | reaping g₀ =>
    rw [hpost] at hreacts
    obtain rfl : g₀ = g := hreacts
    simp only [proceedWarden, hpost] at hstep
    cases hstep
    exact .inl (Table.get?_modify_of_ne _ _ (Ne.symm hne))
  | starting start =>
    cases start with
    | requested => exact .inl (by rw [children_of_request hpost hstep])
    | scrapping g₁ cause =>
      by_cases hsame : g₁ = g'
      · exact .inr ⟨cause, by rw [hsame]⟩
      · simp only [proceedWarden, hpost] at hstep
        cases hstep
        exact .inl (Table.get?_modify_of_ne _ _ hsame)
    | _ =>
      simp only [proceedWarden, hpost] at hstep
      cases hstep
      try exact .inl rfl
  | reclaiming | checking | marking | counting | draining =>
    simp only [proceedWarden, hpost] at hstep
    repeat' split at hstep
    all_goals
      cases hstep
      try exact .inl rfl
  | _ =>
    rw [hpost] at hreacts
    exact hreacts.elim

private theorem spares_of_discard {stream : Stream} (hreacts : t.warden.reactsTo g)
    (hstep : t.discardToken stream = some u) {g' : Generation} (hne : g' ≠ g) :
    u.children.get? g' = t.children.get? g' := by
  simp only [discardToken] at hstep
  split at hstep
  · next g₀ hpost =>
    rw [hpost] at hreacts
    obtain rfl : g₀ = g := hreacts
    split at hstep
    · obtain ⟨⟨token, o⟩, _, rfl⟩ := Option.map_eq_some_iff.mp hstep
      exact Table.get?_modify_of_ne _ _ (Ne.symm hne)
    · cases hstep
  · cases hstep

/-- While the warden reacts to the end of a child it waits for nothing and notices nothing. -/
private theorem label_of_reaction (hreacts : t.warden.reactsTo g)
    (hwardens : label.isWardens = true) (hstep : t.step label = some u) :
    label ≠ .exitNoticed ∧ label ≠ .closeNoticed ∧ label ≠ .restOver ∧ label ≠ .graceOver := by
  cases way_of_step hstep hwardens with
  | noticedClose _ before _ =>
    obtain before | ⟨_, before⟩ := before <;> rw [before] at hreacts <;> exact hreacts.elim
  | noticedExit before _ =>
    rw [before] at hreacts
    exact hreacts.elim
  | rested before _ =>
    rw [before] at hreacts
    exact hreacts.elim
  | graceOver before _ =>
    rw [before] at hreacts
    exact hreacts.elim
  | _ => simp

/-- While the warden reacts to the end of a child it does nothing to another one, but for one that
it has spawned itself and for which no decoders could be spawned. -/
theorem spares_of_reaction (hreacts : t.warden.reactsTo g) (hwardens : label.isWardens = true)
    (hstep : t.step label = some u) {g' : Generation} {c : Child} (hne : g' ≠ g)
    (hchild : t.children.get? g' = some c) (hknown : g' ≤ t.generation) :
    u.children.get? g' = some c ∨ ∃ cause, t.warden = .starting (.scrapping g' cause) := by
  obtain ⟨hexit, hclose, hrest, hgrace⟩ := label_of_reaction hreacts hwardens hstep
  cases label with
  | warden =>
    rw [← hchild]
    exact spares_of_proceed hreacts hstep hne
  | launch holder outcome =>
    cases holder with
    | caller id => cases hwardens
    | warden =>
      simp only [step, stepLaunch] at hstep
      split at hstep
      · cases outcome with
        | launched =>
          cases hstep
          exact .inl ((Table.get?_set_of_ne _ _ (Nat.ne_of_gt (Nat.lt_succ_of_le hknown))).trans
            hchild)
        | _ =>
          cases hstep
          exact .inl hchild
      · cases hstep
  | equip holder outcome =>
    cases holder with
    | caller id => cases hwardens
    | warden =>
      simp only [step, stepEquip] at hstep
      split at hstep
      · cases outcome <;> cases hstep <;> exact .inl hchild
      · cases hstep
  | discard stream => exact .inl ((spares_of_discard hreacts hstep hne).trans hchild)
  | drained =>
    simp only [step] at hstep
    split at hstep
    · cases hstep
      exact .inl hchild
    · cases hstep
  | exitNoticed => exact absurd rfl hexit
  | closeNoticed => exact absurd rfl hclose
  | restOver => exact absurd rfl hrest
  | graceOver => exact absurd rfl hgrace
  | _ => cases hwardens

/-! ## The ends that the warden notices -/

private theorem notices_created (config : Config) :
    Notices (created config) [] (created config) where
  watched := fun g h ↦ by obtain h | h := h <;> cases h
  gone := fun g h ↦ by cases h
  unnoticed := fun g h ↦ by cases h
  once := List.nodup_nil

private theorem noticed_of_ne (hrun : s.run labels = some t) (hstep : t.step label = some u)
    (hlabel : label ≠ .exitNoticed) : s.noticed (labels ++ [label]) = s.noticed labels := by
  have hnone : t.noticed? label = none := by
    cases label <;> first | rfl | exact absurd rfl hlabel
  rw [noticed, seen_concat hrun hstep, hnone]
  exact List.append_nil _

/-- A step by which nothing is noticed keeps what holds of the ends noticed if the warden goes
nowhere near the slot. -/
private theorem Notices.of_elsewhere (hnotices : Notices s labels t) (hrun : s.run labels = some t)
    (hstep : t.step label = some u) (hlabel : label ≠ .exitNoticed)
    (hbefore : ∀ g, t.warden ≠ .reclaiming g)
    (hafter : ∀ g, u.warden ≠ .watching g ∧ u.warden ≠ .reclaiming g) :
    Notices s (labels ++ [label]) u := by
  have hnoticed := noticed_of_ne hrun hstep hlabel
  refine ⟨fun g h ↦ ?_, fun g hg ↦ ?_, fun g h ↦ absurd h (hafter g).1, hnoticed ▸ hnotices.once⟩
  · exact absurd h (not_or.mpr (hafter g))
  · rw [hnoticed] at hg
    exact .inr (mem_departed_concat hrun hstep ((hnotices.gone g hg).resolve_left (hbefore g)))

/-- A step that leaves the warden where it is keeps what holds of the ends noticed. -/
private theorem Notices.of_unwatched (hnotices : Notices s labels t) (hrun : s.run labels = some t)
    (hstep : t.step label = some u) (hother : label.isWardens = false) :
    Notices s (labels ++ [label]) u := by
  have hsame := (unwatched_of_step hstep hother).warden
  have hnoticed := noticed_of_ne hrun hstep (by rintro rfl; cases hother)
  refine ⟨fun g h ↦ ?_, fun g hg ↦ ?_, fun g h ↦ ?_, hnoticed ▸ hnotices.once⟩
  · rw [hsame] at h
    exact mem_entries_concat hrun hstep (hnotices.watched g h)
  · rw [hsame]
    exact (hnotices.gone g (hnoticed ▸ hg)).imp_right (mem_departed_concat hrun hstep)
  · rw [hsame] at h
    exact hnoticed ▸ hnotices.unnoticed g h

private theorem Notices.of_found (hnotices : Notices s labels t) (hledger : Ledger s labels t)
    (hrun : s.run labels = some t) (hstep : t.step .warden = some u) (hhandle : t.handle = some g)
    (before : t.warden = .looking) (after : u.warden = .watching g) :
    Notices s (labels ++ [.warden]) u := by
  have hnoticed := noticed_of_ne hrun hstep (by simp)
  have hgone : ∀ g' ∈ s.noticed labels, g' ∈ (s.departures labels).map Prod.fst := fun g' hg' ↦
    (hnotices.gone g' hg').resolve_left (by simp [before])
  refine ⟨fun g' h ↦ ?_, fun g' hg' ↦ ?_, fun g' h ↦ ?_, hnoticed ▸ hnotices.once⟩
  · have hsame : g' = g := by simpa [after, eq_comm] using h
    refine mem_entries_concat hrun hstep ?_
    rw [hledger.balanced, hhandle, hsame]
    exact List.mem_append_right _ (List.mem_singleton.mpr rfl)
  · exact .inr (mem_departed_concat hrun hstep (hgone g' (hnoticed ▸ hg')))
  · obtain rfl : g = g' := Warden.watching.inj (after.symm.trans h)
    rw [hnoticed]
    exact fun hg' ↦ hledger.not_departed hhandle (hgone g hg')

private theorem Notices.of_noticedExit (hnotices : Notices s labels t)
    (hrun : s.run labels = some t) (hstep : t.step .exitNoticed = some u)
    (before : t.warden = .watching g) (after : u.warden = .reclaiming g) :
    Notices s (labels ++ [.exitNoticed]) u := by
  have hnoticed : s.noticed (labels ++ [.exitNoticed]) = s.noticed labels ++ [g] := by
    rw [noticed, seen_concat hrun hstep, noticed?, before]
    rfl
  refine ⟨fun g' h ↦ ?_, fun g' hg' ↦ ?_, fun g' h ↦ ?_, ?_⟩
  · have hsame : g' = g := by simpa [after, eq_comm] using h
    exact mem_entries_concat hrun hstep (hsame ▸ hnotices.watched g (.inl before))
  · rw [hnoticed, List.mem_append, List.mem_singleton] at hg'
    obtain hg' | rfl := hg'
    · exact .inr (mem_departed_concat hrun hstep
        ((hnotices.gone g' hg').resolve_left (by simp [before])))
    · exact .inl after
  · cases after.symm.trans h
  · rw [hnoticed, List.nodup_append]
    refine ⟨hnotices.once, by simp, fun g' hg' g'' hg'' ↦ ?_⟩
    rw [List.mem_singleton.mp hg'']
    rintro rfl
    exact hnotices.unnoticed g' before hg'

/-- A warden that goes to the slot to take a child out leaves it only with the child out of the
slot. -/
private theorem Notices.of_reclaiming (hnotices : Notices s labels t)
    (hrun : s.run labels = some t) (hstep : t.step .warden = some u)
    (hledger' : Ledger s (labels ++ [.warden]) u) (hout : u.handle ≠ some g)
    (before : t.warden = .reclaiming g)
    (hafter : ∀ g, u.warden ≠ .watching g ∧ u.warden ≠ .reclaiming g) :
    Notices s (labels ++ [.warden]) u := by
  have hnoticed := noticed_of_ne hrun hstep (by simp)
  refine ⟨fun g h ↦ ?_, fun g' hg' ↦ .inr ?_, fun g h ↦ absurd h (hafter g).1,
    hnoticed ▸ hnotices.once⟩
  · exact absurd h (not_or.mpr (hafter g))
  · obtain h | hgone := hnotices.gone g' (hnoticed ▸ hg')
    · obtain rfl : g = g' := Warden.reclaiming.inj (before.symm.trans h)
      have hentered := mem_entries_concat hrun hstep (hnotices.watched g (.inr before))
      exact hledger'.departed hentered hout
    · exact mem_departed_concat hrun hstep hgone

private theorem handle_of_reclaiming (hstep : t.step .warden = some u)
    (before : t.warden = .reclaiming g) : u.handle ≠ some g := by
  simp only [step, proceedWarden, before] at hstep
  split at hstep
  · cases hstep
  · split at hstep
    · cases hstep
      simp [emptySlot]
    · next hout =>
      cases hstep
      exact hout

/-- One more step keeps what holds of the ends noticed. -/
theorem Notices.step (hnotices : Notices s labels t) (hledger : Ledger s labels t)
    (hs : t.Reachable) (hrun : s.run labels = some t) (hstep : t.step label = some u) :
    Notices s (labels ++ [label]) u := by
  cases hwardens : label.isWardens with
  | false => exact hnotices.of_unwatched hrun hstep hwardens
  | true =>
    have hledger' := hledger.step hs hrun hstep
    cases way_of_step hstep hwardens with
    | found hhandle before after => exact hnotices.of_found hledger hrun hstep hhandle before after
    | noticedExit before after => exact hnotices.of_noticedExit hrun hstep before after
    | reclaimed _ before after =>
      exact hnotices.of_reclaiming hrun hstep hledger' (handle_of_reclaiming hstep before) before
        (by simp [after])
    | missed _ before after =>
      exact hnotices.of_reclaiming hrun hstep hledger' (handle_of_reclaiming hstep before) before
        (by simp [after])
    | noticedClose _ before after =>
      refine hnotices.of_elsewhere hrun hstep (by simp) ?_ (by simp [after])
      obtain before | ⟨_, before⟩ := before <;> simp [before]
    | cleared _ before after =>
      refine hnotices.of_elsewhere hrun hstep (by simp) (by simp [before]) ?_
      obtain after | after := after <;> simp [after]
    | finished before after =>
      refine hnotices.of_elsewhere hrun hstep (by simp) ?_ (by simp [after])
      obtain before | before := before <;> simp [before]
    | _ =>
      next before after =>
        exact hnotices.of_elsewhere hrun hstep (by simp) (by simp [before]) (by simp [after])

theorem notices_of_run {config : Config} (hrun : (created config).run labels = some t) :
    Notices (created config) labels t :=
  run_induction (notices_created config)
    (fun _ _ _ _ ht hnotices hstep ↦
      hnotices.step (ledger_of_run ht) ((reachable_created config).run ht) ht hstep) hrun

/-! ## The tenures of a run -/

/-- What becomes of the children that are put into the slot in the course of a run. -/
structure Tenures (s : Supervisor) (labels : List Label) (t : Supervisor) : Prop where
  /-- Each child in the slot has a larger generation than all before it. -/
  increasing : (s.entries labels).Pairwise (· < ·)
  /-- All but the last have left the slot, once each, and the last has or is there still. -/
  balanced : s.entries labels = (s.departures labels).map Prod.fst ++ t.handle.toList
  /-- A child that has left was taken out for a restart, by a stop or for shutdown. Who took it out
  has it to reap as long as it is alive, and no longer. -/
  taken : ∀ g taker, (g, taker) ∈ s.departures labels →
    ∃ k, taker = some k ∧ (t.isLive g = true ↔ t.duty? k.holder = some (.reap g))
  /-- Who has a child to reap can go on, and after three steps of its own at most the child is
  reaped, whatever the others do. -/
  reaped : ∀ g h, t.duty? h = some (.reap g) →
    (∃ label u, h.owns label = true ∧ t.step label = some u) ∧
      ∀ later u, t.run later = some u → 3 ≤ later.countP h.owns → u.isLive g = false
  /-- A warden that reacts to the end of a child leaves any other one in the slot, and does nothing
  to it. All that it reaps besides is a child that it has spawned meanwhile, that could not be
  equipped and that never was in the slot. -/
  spared : ∀ g, Reacts s g labels t → ∀ label u, label.isWardens = true → t.step label = some u →
    ∀ g', g' ≠ g → (t.handle = some g' → u.handle = some g') ∧
      ∀ c, t.children.get? g' = some c → u.children.get? g' = some c ∨
        g' ∉ s.entries labels ∧ ∃ cause, t.warden = .starting (.scrapping g' cause)
  /-- The end of no child is noticed twice. -/
  noticedOnce : (s.noticed labels).Nodup

/-- Children come into the slot with ever larger generations, and each leaves it once at most, into
the hands of one thread, which reaps it. The warden reacts to the end of a child once, and when it
does it leaves all others alone, also where the child has been replaced meanwhile. -/
theorem tenures_of_run {config : Config} {launch : Launch} {equip : Equip}
    {wardenFault : Option IoFault} (hcreate : create config launch equip wardenFault = .ok s)
    (hrun : s.run labels = some t) : Tenures s labels t := by
  cases create_eq_ok hcreate
  have hs : t.Reachable := (reachable_created config).run hrun
  have hledger := ledger_of_run hrun
  refine ⟨hledger.increasing, hledger.balanced, fun g taker hg ↦ ?_, fun g h hduty ↦ ?_,
    fun g hreacts label u hwardens hstep g' hne ↦ ⟨?_, fun c hchild ↦ ?_⟩,
    (notices_of_run hrun).once⟩
  · obtain ⟨k, htaker, hhanded⟩ := hledger.handed g taker hg
    refine ⟨k, htaker, hhanded, fun hduty ↦ ?_⟩
    exact (hs.custody.kept g).mpr ⟨.thread k.holder, by rw [kept?, hduty]; rfl⟩
  · exact ⟨exists_own_of_reap hduty, fun later u hlater ↦ reaped_of_run hs hduty hlater⟩
  · exact keeps_slot_of_reaction hs hreacts.reactsTo hwardens hstep hne
  · have hknown := hs.le_of_child hchild
    refine (spares_of_reaction hreacts.reactsTo hwardens hstep hne hchild hknown).imp_right ?_
    rintro ⟨cause, hpost⟩
    have hduty : t.duty? .warden = some (.start (.scrapping g' cause)) := by
      rw [duty?, dutyAmong?, hpost]
      rfl
    exact ⟨fun hentered ↦ Nat.lt_irrefl g' (hledger.younger _ _ g' hduty rfl g' hentered),
      cause, hpost⟩

/-- The first child is stopped and its streams end, and when the warden has noticed that, another
child is started before the warden comes to the slot. -/
def replacedBeforeReclaimed : List Label :=
  [.warden, .call 0 .stop, .proceed 0, .proceed 0, .endStream 1 .out, .disconnect 1 .out,
    .report 1 .out, .exitNoticed, .call 1 .start, .proceed 1, .launch (.caller 1) .launched,
    .equip (.caller 1) .equipped]

/-- A warden that comes to the slot too late leaves the second child there. -/
theorem tenures_of_replaced :
    ∃ t, (created {}).run replacedBeforeReclaimed = some t ∧
      (created {}).entries replacedBeforeReclaimed = [1, 2] ∧
      (created {}).departures replacedBeforeReclaimed = [(1, some (.stop 0))] ∧
      t.warden = .reclaiming 1 ∧ t.isLive 1 = false ∧
      ∀ u, t.step .warden = some u → u.handle = some 2 := by
  have hcreate : create {} .launched .equipped none = .ok (created {}) := rfl
  have hrun : (created {}).run replacedBeforeReclaimed = some _ := rfl
  have hbefore : (created {}).run (replacedBeforeReclaimed.take 7) = some _ := rfl
  have hreacts : Reacts (created {}) 1 replacedBeforeReclaimed _ :=
    ((((Reacts.noticed hbefore rfl rfl).goesOn rfl (by decide)).goesOn rfl (by decide)).goesOn rfl
      (by decide)).goesOn rfl (by decide)
  exact ⟨_, hrun, rfl, rfl, rfl, rfl, fun u hstep ↦
    ((tenures_of_run hcreate hrun).spared 1 hreacts .warden u rfl hstep 2 (by decide)).1 rfl⟩

end

end Sidecar.Supervisor
