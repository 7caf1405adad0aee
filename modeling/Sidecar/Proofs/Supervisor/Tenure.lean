import Sidecar.Proofs.Supervisor.Latest
import Sidecar.Proofs.Supervisor.Reaping

/-!
# Who has the slot, and who empties it

Children are in the slot one after the other, each later one with a larger generation, and each
leaves it at most once: a caller stops it, or the warden restarts it or shuts down. Who has taken it
out has to reap it (`Ledger`).
-/

namespace Sidecar.Supervisor

/-- Who takes a child out of the slot. -/
inductive Taker where
  /-- The warden, which has noticed the end of the child and is going to replace it. -/
  | restart
  /-- A caller, which stops the child. -/
  | stop (id : CallerId)
  /-- The warden, which has left its loop. -/
  | shutdown
  deriving DecidableEq, Repr

/-- The thread that takes the child out. -/
def Taker.holder : Taker → Holder
  | .restart => .warden
  | .stop id => .caller id
  | .shutdown => .warden

/-- Who takes a child out of the slot by a label, if anybody can. -/
def taker? (s : Supervisor) : Label → Option Taker
  | .proceed id => if s.callers.get? id = some .stopping then some (.stop id) else none
  | .warden =>
    match s.warden with
    | .reclaiming _ => some .restart
    | .closing => some .shutdown
    | _ => none
  | _ => none

/-- What is seen of the steps of a run, one after the other. -/
def seen {α : Type} (see : Supervisor → Label → Supervisor → Option α) (s : Supervisor) :
    List Label → List α
  | [] => []
  | label :: labels =>
    match s.step label with
    | some t => (see s label t).toList ++ seen see t labels
    | none => []

/-- The children in the slot in the course of a run, one after the other. -/
def entries (s : Supervisor) (labels : List Label) : List Generation :=
  s.handle.toList ++ s.seen (fun u _ v ↦ if v.handle = u.handle then none else v.handle) labels

/-- The children that have left the slot in the course of a run, and who took each of them. -/
def departures (s : Supervisor) (labels : List Label) : List (Generation × Option Taker) :=
  s.seen (fun u label v ↦
    if v.handle = u.handle then none else u.handle.map (·, u.taker? label)) labels

/-- What a step does to the slot. -/
inductive Turnover (s : Supervisor) (label : Label) (t : Supervisor) : Prop where
  /-- Nothing. -/
  | kept (hhandle : t.handle = s.handle)
  /-- A child goes into the slot, which was empty. -/
  | entered {h : Holder} {g : Generation} (hempty : s.handle = none) (hhandle : t.handle = some g)
      (hduty : s.duty? h = some (.start (.equipping g)))
  /-- The child is taken out, and who takes it has to reap it. -/
  | left {taker : Taker} {g : Generation} (hhandle : s.handle = some g) (hempty : t.handle = none)
      (htaker : s.taker? label = some taker) (hduty : t.duty? taker.holder = some (.reap g))

section

variable {s t u : Supervisor} {label : Label} {labels : List Label} {g : Generation} {h : Holder}
  {id : CallerId}

/-! ## Who takes a child out -/

/-- A caller that goes on and has a child to reap then was about to stop the child. -/
private theorem stopping_of_proceed {c : Caller} (hproceed : s.proceedCaller id c = some t)
    (hafter : t.callers.get? id = some (.reaping g)) : c = .stopping := by
  cases c with
  | stopping => rfl
  | starting start =>
    exfalso
    unfold proceedCaller at hproceed
    split at hproceed
    · split at hproceed
      · cases hproceed
      · split at hproceed
        · next result _ =>
          cases hproceed
          cases result <;> simp [finishStart, finish, place] at hafter
        · cases hproceed
          simp [place] at hafter
    · obtain ⟨⟨failure, u⟩, _, rfl⟩ := Option.map_eq_some_iff.mp hproceed
      simp [finish, place] at hafter
    all_goals contradiction
  | _ =>
    exfalso
    simp only [proceedCaller] at hproceed
    repeat' split at hproceed
    all_goals first
      | cases hproceed; done
      | cases hproceed; simp [finish, place] at hafter

/-- A warden that goes on and has a child to reap only then restarts it or shuts down. -/
private theorem taker_of_warden (hstep : s.step .warden = some t)
    (hbefore : s.duty? .warden = none) (hafter : t.duty? .warden = some (.reap g)) :
    ∃ taker, s.taker? .warden = some taker ∧ taker.holder = .warden := by
  have hnone : s.warden.duty? = none := hbefore
  have hreap : t.warden.duty? = some (.reap g) := hafter
  cases way_of_step hstep rfl with
  | reclaimed _ before _ => exact ⟨.restart, by rw [taker?, before], rfl⟩
  | cleared _ before _ => exact ⟨.shutdown, by rw [taker?, before], rfl⟩
  | dismissed before _ =>
    rw [before] at hnone
    cases hnone
  | _ =>
    next after =>
      rw [after] at hreap
      cases hreap

/-- What a step does to the slot. -/
theorem turnover_of_step (hs : s.Locked) (hstep : s.step label = some t) :
    Turnover s label t := by
  have hmove := move_of_step hstep
  cases hmove with
  | equipped hduty hshift =>
    exact .entered (hs.empty (by rw [hs.lock_eq hduty]; rfl)) rfl hduty
  | @taken h g callers warden hlock hhandle hduty hshift =>
    have hafter := (hshift.duties h).trans (if_pos rfl)
    cases h with
    | caller id =>
      obtain ⟨c, hpost, hproceed⟩ := Option.bind_eq_some_iff.mp hstep
      have hstopping := stopping_of_proceed hproceed (caller_of_reap hafter)
      have htaker : s.taker? (.proceed id) = some (.stop id) := by
        rw [taker?, hpost, hstopping, if_pos rfl]
      exact .left hhandle rfl htaker hafter
    | warden =>
      obtain ⟨taker, htaker, hholder⟩ := taker_of_warden hstep hduty hafter
      exact .left hhandle rfl htaker (hholder ▸ hafter)
  | cleared hlock hhandle hwarden hduty hleft =>
    have htaker : s.taker? .warden = some .shutdown := by rw [taker?, hwarden]
    exact .left hhandle rfl htaker hduty
  | _ => exact .kept rfl

/-! ## What is seen of a run -/

/-- What is seen of a run and a step is what is seen of the run, and then of the step. -/
theorem seen_concat {α : Type} {see : Supervisor → Label → Supervisor → Option α}
    (hrun : s.run labels = some t) (hstep : t.step label = some u) :
    s.seen see (labels ++ [label]) = s.seen see labels ++ (see t label u).toList := by
  induction labels generalizing s with
  | nil =>
    cases hrun
    simp [seen, hstep]
  | cons first labels ih =>
    rw [run_cons] at hrun
    obtain ⟨v, hfirst, hrest⟩ := Option.bind_eq_some_iff.mp hrun
    simp only [List.cons_append, seen, hfirst]
    rw [ih hrest, List.append_assoc]

private theorem entries_of_handle (hrun : s.run labels = some t) (hstep : t.step label = some u)
    (hhandle : u.handle = t.handle ∨ u.handle = none) :
    s.entries (labels ++ [label]) = s.entries labels := by
  rw [entries, seen_concat hrun hstep, entries]
  obtain hhandle | hhandle := hhandle
  · simp [hhandle]
  · simp [hhandle]

private theorem entries_of_entered (hrun : s.run labels = some t) (hstep : t.step label = some u)
    (hempty : t.handle = none) (hhandle : u.handle = some g) :
    s.entries (labels ++ [label]) = s.entries labels ++ [g] := by
  rw [entries, seen_concat hrun hstep, entries, List.append_assoc, hempty, hhandle]
  rfl

private theorem departures_of_handle (hrun : s.run labels = some t) (hstep : t.step label = some u)
    (hhandle : u.handle = t.handle ∨ t.handle = none) :
    s.departures (labels ++ [label]) = s.departures labels := by
  rw [departures, seen_concat hrun hstep, departures]
  obtain hhandle | hhandle := hhandle
  · simp [hhandle]
  · simp [hhandle]

private theorem departures_of_left (hrun : s.run labels = some t) (hstep : t.step label = some u)
    (hhandle : t.handle = some g) (hempty : u.handle = none) :
    s.departures (labels ++ [label]) = s.departures labels ++ [(g, t.taker? label)] := by
  rw [departures, seen_concat hrun hstep, hempty, hhandle]
  rfl

/-! ## One child after the other -/

/-- What holds of the children that have been in the slot. -/
structure Ledger (s : Supervisor) (labels : List Label) (t : Supervisor) : Prop where
  balanced : s.entries labels = (s.departures labels).map Prod.fst ++ t.handle.toList
  increasing : (s.entries labels).Pairwise (· < ·)
  known : ∀ g ∈ s.entries labels, g ≤ t.generation
  /-- A child that is being started is younger than all of them. -/
  younger : ∀ h start g, t.duty? h = some (.start start) → (Duty.start start).child? = some g →
    ∀ g' ∈ s.entries labels, g' < g
  /-- Who took a child out has to reap it, as long as it is alive. -/
  handed : ∀ g taker, (g, taker) ∈ s.departures labels →
    ∃ k, taker = some k ∧ (t.isLive g = true → t.duty? k.holder = some (.reap g))

private theorem ledger_created (config : Config) : Ledger (created config) [] (created config) where
  balanced := rfl
  increasing := List.pairwise_singleton _ _
  known := fun g hg ↦ by
    rw [List.mem_singleton.mp hg]
    exact Nat.le_refl 1
  younger := fun h start g hduty ↦ by simp [duty?_created] at hduty
  handed := fun g taker hg ↦ by simp [departures, seen] at hg

theorem Ledger.mem_entries (hledger : Ledger s labels t) {taker : Option Taker}
    (hg : (g, taker) ∈ s.departures labels) : g ∈ s.entries labels := by
  rw [hledger.balanced]
  exact List.mem_append_left _ (List.mem_map_of_mem hg)

/-- A child that is in the slot has not left it. -/
theorem Ledger.not_departed (hledger : Ledger s labels t) (hhandle : t.handle = some g) :
    g ∉ (s.departures labels).map Prod.fst := by
  have hincreasing := hledger.increasing
  rw [hledger.balanced, hhandle] at hincreasing
  intro hmem
  exact Nat.lt_irrefl g ((List.pairwise_append.mp hincreasing).2.2 g hmem g (by simp))

private theorem Ledger.handed_step (hledger : Ledger s labels t) (hs : t.Reachable)
    (hstep : t.step label = some u) {taker : Option Taker}
    (hg : (g, taker) ∈ s.departures labels) :
    ∃ k, taker = some k ∧ (u.isLive g = true → u.duty? k.holder = some (.reap g)) := by
  have hmove := move_of_step hstep
  obtain ⟨k, htaker, hhanded⟩ := hledger.handed g taker hg
  refine ⟨k, htaker, fun hlive ↦ ?_⟩
  have hknown := hledger.known g (hledger.mem_entries hg)
  have hbefore : t.isLive g = true := by
    cases hdead : t.isLive g with
    | true => rfl
    | false =>
      rw [((passing_of_move hs.locked hmove).not_isLive hdead hknown).1] at hlive
      cases hlive
  obtain hkept | ⟨_, hdead⟩ := reap_of_move hmove (hhanded hbefore)
  · exact hkept
  · rw [hdead] at hlive
    cases hlive

private theorem Ledger.younger_step (hledger : Ledger s labels t) (hstep : t.step label = some u)
    {start : Start} (hduty : u.duty? h = some (.start start))
    (hchild : (Duty.start start).child? = some g) {g' : Generation}
    (hg' : g' ∈ s.entries labels) : g' < g := by
  have hbecomes := becomes_of_move (move_of_step hstep) h
  rw [hduty] at hbecomes
  cases hbefore : t.duty? h with
  | none =>
    rw [hbefore] at hbecomes
    cases hbecomes
    cases hchild
  | some before =>
    rw [hbefore] at hbecomes
    cases hbecomes with
    | same => exact hledger.younger h start g hbefore hchild g' hg'
    | uncaptured => cases hchild
    | launched =>
      cases hchild
      exact Nat.lt_succ_of_le (hledger.known g' hg')
    | unequipped =>
      cases hchild
      exact hledger.younger h _ g hbefore rfl g' hg'

/-- A step by which no child enters keeps the ledger, if it is balanced and who takes a child out
has to reap it. -/
private theorem Ledger.of_entries_eq (hledger : Ledger s labels t) (hstep : t.step label = some u)
    (hentries : s.entries (labels ++ [label]) = s.entries labels)
    (hbalanced : s.entries labels =
      (s.departures (labels ++ [label])).map Prod.fst ++ u.handle.toList)
    (hhanded : ∀ g taker, (g, taker) ∈ s.departures (labels ++ [label]) →
      ∃ k, taker = some k ∧ (u.isLive g = true → u.duty? k.holder = some (.reap g))) :
    Ledger s (labels ++ [label]) u where
  balanced := hentries.trans hbalanced
  increasing := hentries ▸ hledger.increasing
  known := fun g hg ↦
    (hledger.known g (hentries ▸ hg)).trans (generation_le_of_move (move_of_step hstep))
  younger := fun _ _ _ hduty hchild _ hg' ↦
    hledger.younger_step hstep hduty hchild (hentries ▸ hg')
  handed := hhanded

private theorem Ledger.of_entered (hledger : Ledger s labels t) (hs : t.Reachable)
    (hrun : s.run labels = some t) (hstep : t.step label = some u) (hempty : t.handle = none)
    (hhandle : u.handle = some g) (hduty : t.duty? h = some (.start (.equipping g))) :
    Ledger s (labels ++ [label]) u := by
  have hmove := move_of_step hstep
  have hlocked := hs.locked.move hmove
  have hentries := entries_of_entered hrun hstep hempty hhandle
  have hdepartures := departures_of_handle hrun hstep (.inr hempty)
  refine ⟨?_, ?_, ?_, ?_, ?_⟩
  · rw [hentries, hdepartures, hhandle, hledger.balanced, hempty]
    simp
  · rw [hentries, List.pairwise_append]
    refine ⟨hledger.increasing, List.pairwise_singleton _ _, fun g' hg' g'' hg'' ↦ ?_⟩
    rw [List.mem_singleton.mp hg'']
    exact hledger.younger h _ g hduty rfl g' hg'
  · intro g' hg'
    rw [hentries, List.mem_append, List.mem_singleton] at hg'
    refine le_trans ?_ (generation_le_of_move hmove)
    obtain hg' | rfl := hg'
    · exact hledger.known g' hg'
    · exact (hs.latest.starting h _ g' hduty rfl).le
  · -- The slot is full now, so nobody is starting a child.
    intro h' start g' hstart
    have hnone := hlocked.empty (by rw [hlocked.lock_eq hstart]; rfl)
    cases hhandle.symm.trans hnone
  · rw [hdepartures]
    exact fun g taker ↦ hledger.handed_step hs hstep

/-- One more step keeps the ledger. -/
theorem Ledger.step (hledger : Ledger s labels t) (hs : t.Reachable) (hrun : s.run labels = some t)
    (hstep : t.step label = some u) : Ledger s (labels ++ [label]) u := by
  have hbalanced := hledger.balanced
  cases turnover_of_step hs.locked hstep with
  | kept hhandle =>
    have hdepartures := departures_of_handle hrun hstep (.inl hhandle)
    refine hledger.of_entries_eq hstep (entries_of_handle hrun hstep (.inl hhandle)) ?_ ?_
    · rw [hdepartures, hhandle, hbalanced]
    · rw [hdepartures]
      exact fun g taker ↦ hledger.handed_step hs hstep
  | entered hempty hhandle hduty => exact hledger.of_entered hs hrun hstep hempty hhandle hduty
  | @left taker g hhandle hempty htaker hduty =>
    have hdepartures := departures_of_left hrun hstep hhandle hempty
    refine hledger.of_entries_eq hstep (entries_of_handle hrun hstep (.inr hempty)) ?_ ?_
    · rw [hdepartures, hbalanced, hhandle, hempty]
      simp
    · intro g' taker' hg'
      rw [hdepartures, List.mem_append, List.mem_singleton] at hg'
      obtain hg' | heq := hg'
      · exact hledger.handed_step hs hstep hg'
      · cases heq
        exact ⟨taker, htaker, fun _ ↦ hduty⟩

/-- Every run keeps the ledger. -/
theorem ledger_of_run {config : Config} (hrun : (created config).run labels = some t) :
    Ledger (created config) labels t :=
  run_induction (ledger_created config)
    (fun _ _ _ _ ht hledger hstep ↦
      hledger.step ((reachable_created config).run ht) ht hstep) hrun

/-- What has left the slot stays among what has left it. -/
theorem mem_departed_concat (hrun : s.run labels = some t) (hstep : t.step label = some u)
    (hg : g ∈ (s.departures labels).map Prod.fst) :
    g ∈ (s.departures (labels ++ [label])).map Prod.fst := by
  rw [departures, seen_concat hrun hstep, List.map_append]
  exact List.mem_append_left _ hg

/-- What has been in the slot stays among what has been there. -/
theorem mem_entries_concat (hrun : s.run labels = some t) (hstep : t.step label = some u)
    (hg : g ∈ s.entries labels) : g ∈ s.entries (labels ++ [label]) := by
  rw [entries, seen_concat hrun hstep, ← List.append_assoc]
  exact List.mem_append_left _ hg

/-- What has been in the slot and is not there has left it. -/
theorem Ledger.departed (hledger : Ledger s labels t) (hg : g ∈ s.entries labels)
    (hout : t.handle ≠ some g) : g ∈ (s.departures labels).map Prod.fst := by
  rw [hledger.balanced, List.mem_append] at hg
  obtain hg | hg := hg
  · exact hg
  · exact absurd (Option.mem_toList.mp hg) hout

end

end Sidecar.Supervisor
