import Sidecar.Proofs.Supervisor.Closing
import Sidecar.Proofs.Supervisor.Notice

/-!
# From the request to the end of the warden

A request for shutdown that waits in the channel stays there until the warden takes it, and the
warden takes it only to leave its loop (`taken_of_step`). When it has left, every step of its own
brings it nearer to its end (`nearer_of_left`), and nobody else moves it. From wherever it stands
when a request waits it can come to take it and to its end (`exists_finished`). So a request is
never lost (`closeKept_of_run`).
-/

namespace Sidecar.Supervisor

/-- How many steps of its own the warden needs at most until it has ended, if it takes a request
that waits for it as soon as it can. -/
def Warden.distance : Warden → Nat
  | .finished => 0
  | .releasing => 1
  | .finishing _ => 2
  | .lingering _ => 3
  | .dismissing _ => 4
  | .closing => 5
  | .watching _ => 6
  | .resting => 6
  | .looking => 7
  | .checking => 8
  | .starting _ => 8
  | .counting => 8
  | .marking => 9
  | .draining _ => 9
  | .reaping _ => 10
  | .reclaiming _ => 11

/-- A request for shutdown waits in the channel, or the warden has taken it and left its loop. -/
def IsDelivered (s : Supervisor) : Prop := s.closeNotice = true ∨ s.warden.hasLeft = true

section

variable {s t u : Supervisor} {label : Label} {labels : List Label} {id : CallerId}

/-! ## A warden that has left its loop -/

/-- A warden that has left its loop needs five steps at most, and none when it has ended. -/
theorem Warden.distance_of_hasLeft {warden : Warden} (h : warden.hasLeft = true) :
    warden.distance ≤ 5 ∧ (warden.distance = 0 ↔ warden = .finished) := by
  cases warden <;> first | cases h; done | simp [distance]

/-- A step of its own brings a warden that has left its loop nearer to its end. -/
theorem nearer_of_left (hstep : s.step label = some t) (hown : label.isWardens = true)
    (hleft : s.warden.hasLeft = true) :
    t.warden.hasLeft = true ∧ t.warden.distance < s.warden.distance := by
  cases way_of_step hstep hown with
  | clearedNone _ before after =>
    rw [before, after]
    decide
  | cleared _ before after =>
    obtain after | after := after
    all_goals
      rw [before, after]
      simp [Warden.hasLeft, Warden.hasCleared, Warden.distance]
  | dismissed before after =>
    rw [before, after]
    simp [Warden.hasLeft, Warden.hasCleared, Warden.distance]
  | graceOver before after =>
    rw [before, after]
    simp [Warden.hasLeft, Warden.hasCleared, Warden.distance]
  | finished before after =>
    obtain before | before := before
    all_goals
      rw [before, after]
      simp [Warden.hasLeft, Warden.hasCleared, Warden.distance]
  | released before after =>
    rw [before, after]
    decide
  | noticedClose _ before _ =>
    obtain before | ⟨g, before⟩ := before
    all_goals
      rw [before] at hleft
      cases hleft
  | _ =>
    next before _ =>
      rw [before] at hleft
      cases hleft

/-- After a run a warden that had left its loop is nearer to its end by the steps that it has
taken. -/
theorem nearer_of_run (hleft : s.warden.hasLeft = true) (hrun : s.run labels = some t) :
    t.warden.hasLeft = true ∧
      t.warden.distance + labels.countP (·.isWardens) ≤ s.warden.distance := by
  refine run_induction (P := fun labels t ↦ t.warden.hasLeft = true ∧
    t.warden.distance + labels.countP (·.isWardens) ≤ s.warden.distance) ⟨hleft, le_rfl⟩ ?_ hrun
  intro labels label t u _ h hstep
  rw [List.countP_append, List.countP_singleton]
  cases hown : label.isWardens with
  | false =>
    rw [(unwatched_of_step hstep hown).warden]
    exact h
  | true =>
    obtain ⟨hstays, hless⟩ := nearer_of_left hstep hown h.1
    refine ⟨hstays, ?_⟩
    rw [if_pos rfl]
    omega

/-- A warden that has left its loop has ended after five steps of its own. -/
theorem finished_of_left (hleft : s.warden.hasLeft = true) (hrun : s.run labels = some t)
    (hsteps : 5 ≤ labels.countP (·.isWardens)) : t.warden = .finished := by
  obtain ⟨hstays, hless⟩ := nearer_of_run hleft hrun
  have hbound := (Warden.distance_of_hasLeft hleft).1
  apply (Warden.distance_of_hasLeft hstays).2.mp
  omega

/-! ## A request that waits -/

/-- A request is taken from the channel by a warden that leaves its loop with it, and by nothing
else. -/
theorem taken_of_step (hstep : s.step label = some t) (hbefore : s.closeNotice = true)
    (hafter : t.closeNotice = false) : label = .closeNoticed ∧ t.warden = .closing := by
  cases handling_of_step hstep with
  | aside _ _ _ _ hcarries =>
    have hsame := hcarries .channel
    rw [carries, carries, hbefore, hafter] at hsame
    cases hsame
  | taken _ _ _ => exact ⟨rfl, rfl⟩
  | repeated _ _ =>
    cases hbefore.symm.trans hafter
  | made _ _ =>
    cases hbefore.symm.trans hafter
  | told _ => cases hafter

/-- A step keeps a request that was delivered. -/
theorem IsDelivered.step (h : s.IsDelivered) (hstep : s.step label = some t) : t.IsDelivered := by
  cases hnotice : t.closeNotice with
  | true => exact .inl hnotice
  | false =>
    right
    obtain hbefore | hleft := h
    · rw [(taken_of_step hstep hbefore hnotice).2]
      rfl
    · cases hown : label.isWardens with
      | true => exact (nearer_of_left hstep hown hleft).1
      | false =>
        rw [(unwatched_of_step hstep hown).warden]
        exact hleft

/-- What was delivered stays delivered, whatever follows. -/
theorem IsDelivered.reaches (h : s.IsDelivered) (hreach : Reaches s t) : t.IsDelivered := by
  induction hreach with
  | refl => exact h
  | step label _ hstep ih => exact ih.step hstep

/-- In its loop a warden that waits can take the request. -/
private theorem exists_taken (hnotice : s.closeNotice = true)
    (hpost : s.warden = .resting ∨ ∃ g, s.warden = .watching g) :
    ∃ t, s.step .closeNoticed = some t ∧ t.warden.distance < s.warden.distance := by
  obtain hpost | ⟨g, hpost⟩ := hpost
  all_goals
    refine ⟨{ s with closeNotice := false, warden := .closing }, ?_, ?_⟩
    · simp only [step, noticeClose, hpost, hnotice, if_true]
    · rw [hpost]
      exact Nat.lt_succ_self 5

/-- A start of the warden that comes after the request ends at once. -/
private theorem exists_notStarted (hs : s.Reachable) (hsealed : s.Sealed) {start : Start}
    (hpost : s.warden = .starting start) :
    ∃ t, s.step .warden = some t ∧ t.warden.distance < s.warden.distance := by
  by_cases hrequested : start = .requested
  · subst hrequested
    refine ⟨{ s with warden := .looking }, ?_, ?_⟩
    · simp [step, proceedWarden, hpost, hsealed.unlocked, beginStart, hsealed.requested,
        wardenStarted]
    · rw [hpost]
      exact Nat.lt_succ_self 7
  · have hduty : s.duty? .warden = some (.start start) := by
      rw [duty?, dutyAmong?, hpost]
      cases start <;> first | rfl | exact absurd rfl hrequested
    exact absurd hduty (hsealed.duty?_ne hs.locked start)

/-- A warden for which a request waits, or which has taken it, can go on and come nearer to its
end. -/
theorem exists_nearer (hs : s.Reachable) (h : s.IsDelivered) (hnot : s.warden ≠ .finished) :
    ∃ label t, label.isWardens = true ∧ s.step label = some t ∧
      t.warden.distance < s.warden.distance := by
  have hsealed : s.Sealed := h.elim hs.shutdown.noticed hs.shutdown.left
  have hlock := hsealed.unlocked
  have hnotice (hleft : s.warden.hasLeft = false) : s.closeNotice = true := by
    obtain hnotice | hleft' := h
    · exact hnotice
    · rw [hleft] at hleft'
      cases hleft'
  cases hpost : s.warden with
  | finished => exact absurd hpost hnot
  | looking =>
    cases hhandle : s.handle with
    | none =>
      exact ⟨.warden, { s with warden := .resting }, rfl,
        by simp [step, proceedWarden, hpost, hlock, hhandle], Nat.lt_succ_self 6⟩
    | some g =>
      exact ⟨.warden, { s with warden := .watching g }, rfl,
        by simp [step, proceedWarden, hpost, hlock, hhandle], Nat.lt_succ_self 6⟩
  | watching g =>
    obtain ⟨t, hstep, hless⟩ := exists_taken (hnotice (by rw [hpost]; rfl)) (.inr ⟨g, hpost⟩)
    exact ⟨.closeNoticed, t, rfl, hstep, hpost ▸ hless⟩
  | resting =>
    obtain ⟨t, hstep, hless⟩ := exists_taken (hnotice (by rw [hpost]; rfl)) (.inl hpost)
    exact ⟨.closeNoticed, t, rfl, hstep, hpost ▸ hless⟩
  | starting start =>
    obtain ⟨t, hstep, hless⟩ := exists_notStarted hs hsealed hpost
    exact ⟨.warden, t, rfl, hstep, hpost ▸ hless⟩
  | reclaiming g =>
    by_cases hhandle : s.handle = some g
    · exact ⟨.warden, { (s.emptySlot .exiting) with warden := .reaping g }, rfl,
        by simp [step, proceedWarden, hpost, hlock, hhandle], Nat.lt_succ_self 10⟩
    · exact ⟨.warden, { s with warden := .checking }, rfl,
        by simp [step, proceedWarden, hpost, hlock, hhandle], by simp [Warden.distance]⟩
  | closing =>
    cases hhandle : s.handle with
    | none =>
      exact ⟨.warden, { s with warden := .releasing }, rfl,
        by simp [step, proceedWarden, hpost, hlock, hhandle], by simp [Warden.distance]⟩
    | some g =>
      refine ⟨.warden, _, rfl, by simp only [step, proceedWarden, hpost, hlock, hhandle]; rfl, ?_⟩
      dsimp only
      split <;> simp [Warden.distance]
  | marking =>
    exact ⟨.warden, { (s.enter .restarting) with warden := .starting .requested }, rfl,
      by simp [step, proceedWarden, hpost, hlock], Nat.lt_succ_self 8⟩
  | checking =>
    refine ⟨.warden, _, rfl, by simp only [step, proceedWarden, hpost]; rfl, ?_⟩
    rw [hsealed.requested]
    exact Nat.lt_succ_self 7
  | reaping g =>
    exact ⟨.warden, _, rfl, by rw [step, proceedWarden, hpost], by exact Nat.lt_succ_self 9⟩
  | draining g =>
    exact ⟨.drained, _, rfl, by rw [step, hpost], by exact Nat.lt_succ_self 8⟩
  | counting =>
    exact ⟨.warden, _, rfl, by rw [step, proceedWarden, hpost], by exact Nat.lt_succ_self 7⟩
  | dismissing g =>
    exact ⟨.warden, _, rfl, by rw [step, proceedWarden, hpost], by exact Nat.lt_succ_self 3⟩
  | lingering g =>
    exact ⟨.graceOver, _, rfl, by rw [step, hpost], by exact Nat.lt_succ_self 2⟩
  | finishing g =>
    exact ⟨.warden, _, rfl, by rw [step, proceedWarden, hpost], by exact Nat.lt_succ_self 1⟩
  | releasing =>
    exact ⟨.warden, _, rfl, by rw [step, proceedWarden, hpost], by exact Nat.lt_succ_self 0⟩

/-- A warden for which a request waits, or which has taken it, can come to its end by steps of its
own. -/
theorem exists_finished (hs : s.Reachable) (h : s.IsDelivered) :
    ∃ labels t, labels.all (·.isWardens) = true ∧ s.run labels = some t ∧ t.warden = .finished := by
  induction hn : s.warden.distance using Nat.strongRecOn generalizing s with
  | ind n ih =>
    by_cases hpost : s.warden = .finished
    · exact ⟨[], s, rfl, rfl, hpost⟩
    · obtain ⟨label, t, hown, hstep, hless⟩ := exists_nearer hs h hpost
      have ht : t.Reachable := hs.trans (.step label (.refl s) hstep)
      obtain ⟨labels, u, hall, hrun, hfinished⟩ := ih _ (hn ▸ hless) ht (h.step hstep) rfl
      refine ⟨label :: labels, u, ?_, ?_, hfinished⟩
      · rw [List.all_cons, hown, hall]
        rfl
      · rw [run_cons, hstep]
        exact hrun

/-! ## Requests in the course of a run -/

/-- What becomes of the requests for shutdown in the course of a run. -/
structure CloseKept (s : Supervisor) (labels : List Label) (t : Supervisor) : Prop where
  /-- Of all callers that look, to request shutdown, the first finds that it was not requested
  before, and no other does. -/
  sole : s.lookups labels = [] ∧ t.isClosed = false ∨
    ∃ id later, s.lookups labels = (id, false) :: later ∧ ∀ look ∈ later, look.2 = true
  /-- Only this caller tells the warden, and it does so once. The channel is empty then, and the
  warden is in its loop. -/
  told : ∀ telling ∈ s.tellings labels, s.tellings labels = [telling] ∧
    (telling.id, false) ∈ s.lookups labels ∧ telling.isFull = false ∧ telling.isLate = false
  /-- When its call has come back it has told the warden. From then on the request waits in the
  channel, or the warden has taken it and left its loop. -/
  returned : ∀ past id outcome u, past <+: labels → s.run past = some u →
    (id, false) ∈ s.lookups past → u.callers.get? id = some (.done outcome) →
      s.tellings past = [⟨id, false, false⟩] ∧ t.IsDelivered
  /-- Nobody takes the request out of the channel but a warden that leaves its loop with it. A
  warden that notices the end of a child first leaves the request there. -/
  taken : ∀ label u, t.step label = some u → t.closeNotice = true → u.closeNotice = false →
    label = .closeNoticed ∧ u.warden = .closing
  /-- A warden that has left its loop has ended after five steps of its own, whatever the others
  do. -/
  left : t.warden.hasLeft = true → ∀ later u, t.run later = some u →
    5 ≤ later.countP (·.isWardens) → u.warden = .finished
  /-- Wherever the warden stands, it can come to take a request that waits, and to its end, by steps
  of its own. -/
  arrives : t.IsDelivered → ∃ later u, later.all (·.isWardens) = true ∧ t.run later = some u ∧
    u.warden = .finished
  /-- A caller that waits for shutdown comes back with success only when the warden has ended. The
  warden has taken the request and emptied the slot, and every child is reaped, or in the hands of a
  caller that has stopped it. -/
  waited : ∀ id label u, t.callers.get? id = some .waiting → t.step label = some u →
    u.callers.get? id = some (.done .ok) → t.warden = .finished ∧ .closeNoticed ∈ labels ∧
      t.handle = none ∧ ∀ g, t.isLive g = true → ∃ id', t.callers.get? id' = some (.reaping g)

/-- A request that its caller has handed on has been delivered. -/
theorem Asked.isDelivered {k : Carrier} (h : Asked s labels t id k) (hne : k ≠ .caller id) :
    t.IsDelivered := by
  have hcarries : t.carries k = true := (h.carrier k).mpr rfl
  cases k with
  | caller id' =>
    rw [h.own id' rfl] at hne
    exact absurd rfl hne
  | channel => exact .inl hcarries
  | warden => exact .inr hcarries

/-- The caller whose look found that shutdown was not requested is the one whose request is on its
way. -/
theorem Asked.eq_of_mem {k : Carrier} {id' : CallerId} (h : Asked s labels t id k)
    (hmem : (id', false) ∈ s.lookups labels) : id' = id := by
  obtain ⟨later, hlookups, hall⟩ := h.lookups
  rw [hlookups, List.mem_cons] at hmem
  obtain heq | hlater := hmem
  · exact congrArg Prod.fst heq
  · cases hall _ hlater

private theorem returned_of_run {config : Config} {past : List Label} {outcome : Outcome}
    (hrun : (created config).run labels = some t) (hpast : past <+: labels)
    (hu : (created config).run past = some u) (hlook : (id, false) ∈ (created config).lookups past)
    (hdone : u.callers.get? id = some (.done outcome)) :
    (created config).tellings past = [⟨id, false, false⟩] ∧ t.IsDelivered := by
  obtain ⟨rest, rfl⟩ := hpast
  rw [run_append, hu, Option.bind_some] at hrun
  obtain hunasked | ⟨id', k, hasked⟩ := conveyance_of_run hu
  · rw [hunasked.lookups] at hlook
    cases hlook
  · obtain rfl := hasked.eq_of_mem hlook
    have hne : k ≠ .caller id := by
      rintro rfl
      have hcarries : u.carries (.caller id) = true := (hasked.carrier _).mpr rfl
      rw [carries, duty?, dutyAmong?, hdone] at hcarries
      cases hcarries
    refine ⟨?_, (hasked.isDelivered hne).reaches (reaches_of_run hrun)⟩
    rw [hasked.tellings, if_neg hne]

private theorem told_of_run {config : Config} (hrun : (created config).run labels = some t)
    {telling : Telling} (hmem : telling ∈ (created config).tellings labels) :
    (created config).tellings labels = [telling] ∧
      (telling.id, false) ∈ (created config).lookups labels ∧ telling.isFull = false ∧
      telling.isLate = false := by
  obtain hunasked | ⟨id, k, hasked⟩ := conveyance_of_run hrun
  · rw [hunasked.tellings] at hmem
    cases hmem
  · have htellings := hasked.tellings
    obtain ⟨later, hlookups, -⟩ := hasked.lookups
    split at htellings
    · rw [htellings] at hmem
      cases hmem
    · rw [htellings, List.mem_singleton] at hmem
      subst hmem
      refine ⟨htellings, ?_, rfl, rfl⟩
      rw [hlookups]
      exact List.mem_cons_self

private theorem sole_of_run {config : Config} (hrun : (created config).run labels = some t) :
    (created config).lookups labels = [] ∧ t.isClosed = false ∨
      ∃ id later, (created config).lookups labels = (id, false) :: later ∧
        ∀ look ∈ later, look.2 = true := by
  obtain hunasked | ⟨id, k, hasked⟩ := conveyance_of_run hrun
  · exact .inl ⟨hunasked.lookups, hunasked.notClosed⟩
  · obtain ⟨later, hlookups, hall⟩ := hasked.lookups
    exact .inr ⟨id, later, hlookups, hall⟩

/-- A warden that has left its loop has taken the request. -/
private theorem closeNoticed_mem_of_left {config : Config}
    (hrun : (created config).run labels = some t) (hleft : t.warden.hasLeft = true) :
    .closeNoticed ∈ labels := by
  obtain hunasked | ⟨id, k, hasked⟩ := conveyance_of_run hrun
  · have hnobody := hunasked.nobody .warden
    rw [carries, hleft] at hnobody
    cases hnobody
  · have hwarden : k = .warden := ((hasked.carrier .warden).mp hleft).symm
    have htaken := hasked.taken
    rw [if_pos hwarden] at htaken
    apply List.count_pos_iff.mp
    omega

/-- A request for shutdown is never lost: whatever happens besides, one caller makes it, it waits in
the channel when the call has come back, and the warden takes it only to come to its end. Only then
does anybody who waits for shutdown come back with success. -/
theorem closeKept_of_run {config : Config} {launch : Launch} {equip : Equip}
    {wardenFault : Option IoFault} (hcreate : create config launch equip wardenFault = .ok s)
    (hrun : s.run labels = some t) : CloseKept s labels t := by
  cases create_eq_ok hcreate
  have ht : t.Reachable := (reachable_created config).run hrun
  refine ⟨sole_of_run hrun, fun _ ↦ told_of_run hrun, fun _ _ _ _ ↦ returned_of_run hrun,
    fun _ _ ↦ taken_of_step, fun hleft _ _ ↦ finished_of_left hleft, exists_finished ht, ?_⟩
  intro id label u hpost hstep hdone
  have hfinished := (finished_of_waited hpost hstep hdone).2
  have hreleased := ht.released hfinished
  have hleft : t.warden.hasLeft = true := by
    rw [hfinished]
    rfl
  exact ⟨hfinished, closeNoticed_mem_of_left hrun hleft, hreleased.empty,
    fun g ↦ hreleased.reaping_of_isLive ht⟩

/-- Two callers request shutdown while the first child ends, and a third one waits for it. The
warden notices the end of the child before it takes the request. -/
def closedByTwo : List Label :=
  [.warden, .call 0 .close, .call 1 .close, .call 2 .wait, .proceed 0, .proceed 1,
    .endStream 1 .out, .disconnect 1 .out, .report 1 .out, .proceed 0, .proceed 0, .exitNoticed,
    .warden, .warden, .drained, .warden, .warden, .closeNoticed, .warden, .warden]

/-- The first of two callers is the only one to tell the warden, and the request waits while the
warden reaps the child. Who waited comes back when all is done. -/
theorem closeKept_of_two :
    ∃ t u v, (created {}).run (closedByTwo.take 12) = some t ∧ t.warden = .reclaiming 1 ∧
      t.IsDelivered ∧ (created {}).run closedByTwo = some u ∧
      (created {}).lookups closedByTwo = [(0, false), (1, true)] ∧
      (created {}).tellings closedByTwo = [⟨0, false, false⟩] ∧ u.step (.proceed 2) = some v ∧
      v.callers.get? 2 = some (.done .ok) ∧ u.handle = none := by
  have hcreate : create {} .launched .equipped none = .ok (created {}) := rfl
  have hpast : (created {}).run (closedByTwo.take 12) = some _ := rfl
  have hrun : (created {}).run closedByTwo = some _ := rfl
  have hreturned := (closeKept_of_run hcreate hpast).returned (closedByTwo.take 11) 0 .ok _
    (by decide) rfl (by decide) rfl
  have hwaited := (closeKept_of_run hcreate hrun).waited 2 (.proceed 2) _ rfl rfl rfl
  exact ⟨_, _, _, hpast, rfl, hreturned.2, hrun, rfl, rfl, rfl, rfl, hwaited.2.2.1⟩

end

end Sidecar.Supervisor
