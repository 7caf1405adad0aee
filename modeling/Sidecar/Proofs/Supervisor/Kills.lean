import Sidecar.Proofs.Supervisor.Custody
import Sidecar.Proofs.Supervisor.Legs

/-!
# Killing through a handle

A handle is for the child that was in the slot when it was taken, and all copies of it share one
request. The first call sets the request, and only that call sends a signal, if the child is still
in the slot then. Nobody reaps a child that is in the slot, and the slot is not locked meanwhile, so
the signal goes to that very child (`kills_of_run`).
-/

namespace Sidecar.Supervisor

/-- A child after it was sent a signal that kills it. -/
def Child.signalled (c : Child) : Child :=
  if c.status = .running then { c with status := .exited } else c

/-- A call for a kill that has come back within a run, with what it came back. -/
inductive Returned (s : Supervisor) (labels before : List Label) (id : CallerId) (cell : CellId)
    (sent : Bool) : Prop where
  | intro {since : List Label} {t : Supervisor}
      (hwithin : before ++ .call id (.kill cell) :: since <+: labels) (hstays : .leave id ∉ since)
      (hrun : s.run (before ++ .call id (.kill cell) :: since) = some t)
      (hdone : t.callers.get? id = some (.done (.signalled sent))) :
      Returned s labels before id cell sent

/-- A call for a kill has found that none was requested, and has requested it. -/
inductive Requests (s : Supervisor) (before : List Label) (id : CallerId) (cell : CellId)
    (since : List Label) : Prop where
  | intro {pre mid : List Label} {u : Supervisor} {k : KillCell}
      (hsince : since = pre ++ .proceed id :: mid) (hpre : ownLabels id pre = [])
      (hrun : s.run (before ++ .call id (.kill cell) :: pre) = some u)
      (hpost : u.callers.get? id = some (.targeting cell)) (hcell : u.cells.get? cell = some k)
      (hopen : k.requested = false) : Requests s before id cell since

/-- Where a call for a kill stands. -/
inductive KillStands (s : Supervisor) (before : List Label) (id : CallerId) (cell : CellId)
    (since : List Label) (t : Supervisor) : Caller → Prop where
  | targeting (hown : ownLabels id since = []) :
      KillStands s before id cell since t (.targeting cell)
  | signalling {k : KillCell} (hcell : t.cells.get? cell = some k) (hset : k.requested = true)
      (hrequests : Requests s before id cell since) :
      KillStands s before id cell since t (.signalling k.target)
  | done {sent : Bool} (hkilled : t.isKilled cell = true)
      (hrequests : sent = true → Requests s before id cell since) :
      KillStands s before id cell since t (.done (.signalled sent))

section

variable {s t u : Supervisor} {label : Label} {labels before since : List Label} {id : CallerId}
  {cell : CellId} {k : KillCell}

/-! ## Requests stay -/

/-- What a step does to the kill requests. -/
theorem cellStep_of_step (hstep : s.step label = some t) : CellStep s label t.cells := by
  cases move_of_step hstep with
  | talk _ _ hcells => exact hcells
  | _ => exact .same

/-- A handle keeps its target, and a kill that was requested stays requested. -/
theorem cell_of_step (hstep : s.step label = some t) (hcell : s.cells.get? cell = some k) :
    ∃ k', t.cells.get? cell = some k' ∧ k'.target = k.target ∧
      (k.requested = true → k'.requested = true) := by
  generalize hcells : t.cells = cells
  have hchange := hcells ▸ cellStep_of_step hstep
  cases hchange with
  | same => exact ⟨k, hcell, rfl, fun hset ↦ hset⟩
  | @taken cell' g _ hfree =>
    have hne : cell' ≠ cell := by
      rintro rfl
      cases hfree.symm.trans hcell
    exact ⟨k, (Table.get?_set_of_ne _ _ hne).trans hcell, rfl, fun hset ↦ hset⟩
  | @requested id cell' k' _ hcell' _ =>
    by_cases hsame : cell' = cell
    · subst hsame
      obtain rfl := Option.some.inj (hcell'.symm.trans hcell)
      exact ⟨_, Table.get?_set_self .., rfl, fun _ ↦ rfl⟩
    · exact ⟨k, (Table.get?_set_of_ne _ _ hsame).trans hcell, rfl, fun hset ↦ hset⟩

theorem isKilled_iff : s.isKilled cell = true ↔
    ∃ k, s.cells.get? cell = some k ∧ k.requested = true := by
  rw [isKilled]
  cases hcell : s.cells.get? cell with
  | none => simp
  | some k => simp

/-- A kill that was requested stays requested. -/
theorem isKilled_of_step (hstep : s.step label = some t) (hkilled : s.isKilled cell = true) :
    t.isKilled cell = true := by
  obtain ⟨k, hcell, hset⟩ := isKilled_iff.mp hkilled
  obtain ⟨k', hcell', _, hset'⟩ := cell_of_step hstep hcell
  exact isKilled_iff.mpr ⟨k', hcell', hset' hset⟩

/-- A kill that was requested stays requested, whatever is done. -/
theorem isKilled_of_run (hrun : s.run labels = some t) (hkilled : s.isKilled cell = true) :
    t.isKilled cell = true :=
  run_induction (P := fun _ t ↦ t.isKilled cell = true) hkilled
    (fun _ _ _ _ _ ih hstep ↦ isKilled_of_step hstep ih) hrun

/-! ## The steps of a call for a kill -/

/-- What a caller does that is about to request a kill. -/
private theorem target_of_proceed (hstep : s.proceedCaller id (.targeting cell) = some t) :
    ∃ k, s.cells.get? cell = some k ∧
      (k.requested = true ∧ t = s.finish id (.signalled false) ∨
        k.requested = false ∧
          t = { s with cells := s.cells.set cell { k with requested := true } }.place id
            (.signalling k.target)) := by
  simp only [proceedCaller] at hstep
  split at hstep
  · cases hstep
  · next k hcell =>
    split at hstep
    · next hset =>
      cases hstep
      exact ⟨k, hcell, .inl ⟨hset, rfl⟩⟩
    · next hopen =>
      cases hstep
      exact ⟨k, hcell, .inr ⟨by simpa using hopen, rfl⟩⟩

/-- What a caller does that has requested a kill. -/
private theorem signal_of_proceed {g : Generation}
    (hstep : s.proceedCaller id (.signalling g) = some t) :
    s.lock = none ∧
      (s.handle = some g ∧ t = (s.modifyChild g Child.signalled).finish id (.signalled true) ∨
        s.handle ≠ some g ∧ t = s.finish id (.signalled false)) := by
  simp only [proceedCaller] at hstep
  split at hstep
  · cases hstep
  · next hlock =>
    refine ⟨by simpa using hlock, ?_⟩
    split at hstep
    · next hhandle =>
      cases hstep
      exact .inl ⟨hhandle, rfl⟩
    · next hhandle =>
      cases hstep
      exact .inr ⟨hhandle, rfl⟩

private theorem Requests.concat (h : Requests s before id cell since) (label : Label) :
    Requests s before id cell (since ++ [label]) := by
  obtain ⟨hsince, hpre, hrun, hpost, hcell, hopen⟩ := h
  exact .intro (by rw [hsince, List.append_assoc, List.cons_append]) hpre hrun hpost hcell hopen

/-- Labels of others leave a call for a kill where it is. -/
private theorem KillStands.aside {post : Caller} (h : KillStands s before id cell since t post)
    (hstep : t.step label = some u) (hother : label.caller? ≠ some id) :
    KillStands s before id cell (since ++ [label]) u post := by
  cases h with
  | targeting hown => exact .targeting ((ownLabels_concat_of_ne since hother).trans hown)
  | signalling hcell hset hrequests =>
    obtain ⟨k', hcell', htarget, hset'⟩ := cell_of_step hstep hcell
    rw [← htarget]
    exact .signalling hcell' (hset' hset) (hrequests.concat label)
  | done hkilled hrequests =>
    exact .done (isKilled_of_step hstep hkilled) fun hsent ↦ (hrequests hsent).concat label

/-- A step of its own takes a call for a kill on. -/
private theorem KillStands.own {post : Caller} (h : KillStands s before id cell since t post)
    (hrun : s.run (before ++ .call id (.kill cell) :: since) = some t)
    (hpost : t.callers.get? id = some post) (hstep : t.step label = some u)
    (hown : label.caller? = some id) (hstays : label ≠ .leave id) :
    ∃ post', u.callers.get? id = some post' ∧
      KillStands s before id cell (since ++ [label]) u post' := by
  cases h with
  | targeting hnone =>
    cases own_of_step hstep hown hpost with
    | proceed =>
      rw [step, hpost] at hstep
      obtain ⟨k, hcell, ⟨hset, rfl⟩ | ⟨hopen, rfl⟩⟩ := target_of_proceed hstep
      · exact ⟨_, Table.get?_set_self .., .done (isKilled_iff.mpr ⟨k, hcell, hset⟩) (by simp)⟩
      · refine ⟨_, Table.get?_set_self .., ?_⟩
        exact .signalling (k := { k with requested := true }) (Table.get?_set_self ..) rfl
          (.intro rfl hnone hrun hpost hcell hopen)
  | @signalling k hcell hset hrequests =>
    cases own_of_step hstep hown hpost with
    | proceed =>
      rw [step, hpost] at hstep
      obtain ⟨_, ⟨_, rfl⟩ | ⟨_, rfl⟩⟩ := signal_of_proceed hstep
      · exact ⟨_, Table.get?_set_self .., .done (isKilled_iff.mpr ⟨k, hcell, hset⟩)
          fun _ ↦ hrequests.concat _⟩
      · exact ⟨_, Table.get?_set_self .., .done (isKilled_iff.mpr ⟨k, hcell, hset⟩) (by simp)⟩
  | done => exact absurd (leave_of_done hpost hstep hown) hstays

/-- A call for a kill stands somewhere on its way. -/
theorem killStands_of_run (hstays : .leave id ∉ since)
    (hrun : s.run (before ++ .call id (.kill cell) :: since) = some t) :
    ∃ post, t.callers.get? id = some post ∧ KillStands s before id cell since t post := by
  induction since using List.reverseRecOn generalizing t with
  | nil =>
    obtain ⟨u, _, hstep⟩ := run_concat_eq_some.mp hrun
    simp only [step] at hstep
    split at hstep
    · cases hstep
      exact ⟨_, Table.get?_set_self .., .targeting rfl⟩
    · cases hstep
  | append_singleton since label ih =>
    rw [← List.cons_append, ← List.append_assoc] at hrun
    obtain ⟨u, hu, hstep⟩ := run_concat_eq_some.mp hrun
    rw [List.mem_append, List.mem_singleton, not_or] at hstays
    obtain ⟨post, hpost, hstands⟩ := ih hstays.1 hu
    by_cases hown : label.caller? = some id
    · exact hstands.own hu hpost hstep hown (Ne.symm hstays.2)
    · exact ⟨post, (get?_callers_of_step hstep hown).trans hpost, hstands.aside hstep hown⟩

/-! ## The signal -/

/-- What a step of a call for a kill does to the children. A signal is sent to the child that is in
the slot, and is alive there, if it is the target; the call comes back saying so, and no other child
is touched. Otherwise nothing is done to any child. -/
inductive Signal (s : Supervisor) (id : CallerId) (cell : CellId) (t : Supervisor) : Prop where
  | sent {k : KillCell} (hcell : s.cells.get? cell = some k) (hlock : s.lock = none)
      (hhandle : s.handle = some k.target) (hlive : s.isLive k.target = true)
      (hchildren : t.children = s.children.modify k.target Child.signalled)
      (hback : t.callers.get? id = some (.done (.signalled true))) : Signal s id cell t
  | unsent (hchildren : t.children = s.children)
      (hback : t.callers.get? id ≠ some (.done (.signalled true))) : Signal s id cell t

/-- What a step of a call for a kill does to the children. -/
theorem signal_of_step (hs : t.Reachable) (hstays : .leave id ∉ since)
    (hrun : s.run (before ++ .call id (.kill cell) :: since) = some t)
    (hstep : t.step label = some u) (hown : label.caller? = some id)
    (hstays' : label ≠ .leave id) : Signal t id cell u := by
  obtain ⟨post, hpost, hstands⟩ := killStands_of_run hstays hrun
  cases hstands with
  | targeting =>
    cases own_of_step hstep hown hpost with
    | proceed =>
      rw [step, hpost] at hstep
      obtain ⟨k, _, ⟨_, rfl⟩ | ⟨_, rfl⟩⟩ := target_of_proceed hstep
      · exact .unsent rfl (by simp [finish, place])
      · exact .unsent rfl (by simp [place])
  | @signalling k hcell =>
    cases own_of_step hstep hown hpost with
    | proceed =>
      rw [step, hpost] at hstep
      obtain ⟨hlock, ⟨hhandle, rfl⟩ | ⟨_, rfl⟩⟩ := signal_of_proceed hstep
      · have hlive := (hs.custody.kept k.target).mpr ⟨.slot, hhandle⟩
        exact .sent hcell hlock hhandle hlive rfl (Table.get?_set_self ..)
      · exact .unsent rfl (by simp [finish, place])
  | done => exact absurd (leave_of_done hpost hstep hown) hstays'

/-! ## One call among all -/

private theorem killed_of_requests {pre : List Label} (hrun : s.run labels = some t)
    (hu : s.run pre = some u) (hpost : u.callers.get? id = some (.targeting cell))
    (hwithin : pre ++ [.proceed id] <+: labels) : t.isKilled cell = true := by
  obtain ⟨rest, rfl⟩ := hwithin
  rw [run_append] at hrun
  obtain ⟨v, hv, hrest⟩ := Option.bind_eq_some_iff.mp hrun
  obtain ⟨u', hu', hstep⟩ := run_concat_eq_some.mp hv
  obtain rfl := Option.some.inj (hu.symm.trans hu')
  rw [step, hpost] at hstep
  refine isKilled_of_run hrest (isKilled_iff.mpr ?_)
  obtain ⟨k, hcell, ⟨hset, rfl⟩ | ⟨_, rfl⟩⟩ := target_of_proceed hstep
  · exact ⟨k, hcell, hset⟩
  · exact ⟨_, Table.get?_set_self .., rfl⟩

/-- Where in a run a call has requested a kill, and what it found there. -/
private theorem Requests.within (h : Requests s before id cell since)
    (hwithin : before ++ .call id (.kill cell) :: since <+: labels) :
    ∃ pre u k, before ++ .call id (.kill cell) :: pre ++ [.proceed id] <+: labels ∧
      ownLabels id pre = [] ∧ s.run (before ++ .call id (.kill cell) :: pre) = some u ∧
      u.callers.get? id = some (.targeting cell) ∧ u.cells.get? cell = some k ∧
      k.requested = false := by
  cases h with
  | @intro pre mid u k hsince hpre hrun hpost hcell hopen =>
    refine ⟨pre, u, k, List.IsPrefix.trans ⟨mid, ?_⟩ hwithin, hpre, hrun, hpost, hcell, hopen⟩
    rw [hsince]
    simp

/-- Two calls that have each found no request of a kill are not one after the other. -/
private theorem length_le_of_requests {past past' : List Label} {id' : CallerId} {u' : Supervisor}
    (hwithin : past ++ [.proceed id] <+: labels) (hwithin' : past' ++ [.proceed id'] <+: labels)
    (hu : s.run past = some u) (hpost : u.callers.get? id = some (.targeting cell))
    (hu' : s.run past' = some u') (hcell : u'.cells.get? cell = some k)
    (hopen : k.requested = false) : past'.length ≤ past.length := by
  by_contra hlt
  have hbefore : past ++ [.proceed id] <+: past' :=
    List.prefix_of_prefix_length_le hwithin ((List.prefix_append _ _).trans hwithin')
      (by simp; omega)
  obtain ⟨k', hcell', hset⟩ := isKilled_iff.mp (killed_of_requests hu' hu hpost hbefore)
  obtain rfl := Option.some.inj (hcell.symm.trans hcell')
  cases hopen.symm.trans hset

/-- Callers that go on after equally many labels of a run are the same. -/
private theorem eq_of_concat_prefix {past past' : List Label} {id' : CallerId}
    (hwithin : past ++ [.proceed id] <+: labels) (hwithin' : past' ++ [.proceed id'] <+: labels)
    (hlength : past.length = past'.length) : past = past' ∧ id = id' := by
  have hsame : past ++ [.proceed id] = past' ++ [.proceed id'] :=
    (List.prefix_of_prefix_length_le hwithin hwithin' (by simp [hlength])).eq_of_length
      (by simp [hlength])
  obtain ⟨hpast, hproceed⟩ := List.append_inj' hsame rfl
  exact ⟨hpast, by simpa using hproceed⟩

/-- A caller has made its latest call at one place. -/
private theorem eq_of_call {before' pre pre' : List Label} {call : Call}
    (heq : before ++ .call id call :: pre = before' ++ .call id call :: pre')
    (hpre : ownLabels id pre = []) (hpre' : ownLabels id pre' = []) : before = before' := by
  have hnone : ∀ labels, ownLabels id labels = [] → Label.call id call ∉ labels := by
    intro labels hown hmem
    exact List.filter_eq_nil_iff.mp hown _ hmem (by simp [Label.caller?])
  obtain ⟨between, hbefore', hrest⟩ | ⟨between, hbefore, hrest⟩ := List.append_eq_append_iff.mp heq
  · cases between with
    | nil => simpa using hbefore'.symm
    | cons label between =>
      refine absurd ?_ (hnone pre hpre)
      rw [(List.cons.inj hrest).2]
      simp
  · cases between with
    | nil => simpa using hbefore
    | cons label between =>
      refine absurd ?_ (hnone pre' hpre')
      rw [(List.cons.inj hrest).2]
      simp

/-- A call that comes back saying that it sent the signal has requested the kill before. -/
private theorem Returned.requests (h : Returned s labels before id cell true) :
    ∃ since, before ++ .call id (.kill cell) :: since <+: labels ∧
      Requests s before id cell since := by
  cases h with
  | @intro since t hwithin hstays hrun hdone =>
    obtain ⟨post, hpost, hstands⟩ := killStands_of_run hstays hrun
    obtain rfl := Option.some.inj (hpost.symm.trans hdone)
    cases hstands with
    | done _ hrequests => exact ⟨since, hwithin, hrequests rfl⟩

/-- Of all calls for a kill through one handle, one at most comes back saying that it sent the
signal. -/
theorem Returned.sole {before' : List Label} {id' : CallerId}
    (h : Returned s labels before id cell true) (h' : Returned s labels before' id' cell true) :
    before = before' ∧ id = id' := by
  obtain ⟨_, hwithin, hrequests⟩ := h.requests
  obtain ⟨_, hwithin', hrequests'⟩ := h'.requests
  obtain ⟨pre, u, k, hpast, hpre, hu, hpost, hcell, hopen⟩ := hrequests.within hwithin
  obtain ⟨pre', u', k', hpast', hpre', hu', hpost', hcell', hopen'⟩ := hrequests'.within hwithin'
  have hlength : (before ++ .call id (.kill cell) :: pre).length =
      (before' ++ .call id' (.kill cell) :: pre').length :=
    Nat.le_antisymm (length_le_of_requests hpast' hpast hu' hpost' hu hcell hopen)
      (length_le_of_requests hpast hpast' hu hpost hu' hcell' hopen')
  obtain ⟨hcalls, rfl⟩ := eq_of_concat_prefix hpast hpast' hlength
  exact ⟨eq_of_call hcalls hpre hpre', rfl⟩

/-- Once a call for a kill has come back, the kill was requested. -/
theorem Returned.isKilled {sent : Bool} (h : Returned s labels before id cell sent)
    (hrun : s.run labels = some t) : t.isKilled cell = true := by
  cases h with
  | @intro since u hwithin hstays hu hdone =>
    obtain ⟨post, hpost, hstands⟩ := killStands_of_run hstays hu
    obtain rfl := Option.some.inj (hpost.symm.trans hdone)
    obtain ⟨rest, rfl⟩ := hwithin
    rw [run_append, hu] at hrun
    cases hstands with
    | done hkilled => exact isKilled_of_run hrun hkilled

/-! ## All calls -/

/-- The child of a handle was in the slot when the handle was taken. -/
inductive TakenFrom (s : Supervisor) (labels : List Label) (cell : CellId) (g : Generation) :
    Prop where
  | intro {past rest : List Label} {u : Supervisor}
      (hlabels : labels = past ++ .handle cell :: rest) (hrun : s.run past = some u)
      (hhandle : u.handle = some g) : TakenFrom s labels cell g

private theorem TakenFrom.concat {g : Generation} (h : TakenFrom s labels cell g) (label : Label) :
    TakenFrom s (labels ++ [label]) cell g := by
  obtain ⟨hlabels, hrun, hhandle⟩ := h
  exact .intro (by rw [hlabels, List.append_assoc, List.cons_append]) hrun hhandle

/-- One more step keeps the handles those of children that were in the slot. -/
private theorem takenFrom_of_step (hrun : s.run labels = some t)
    (htaken : ∀ cell k, t.cells.get? cell = some k → TakenFrom s labels cell k.target)
    (hstep : t.step label = some u) (hcell : u.cells.get? cell = some k) :
    TakenFrom s (labels ++ [label]) cell k.target := by
  generalize hcells : u.cells = cells at hcell
  have hchange := hcells ▸ cellStep_of_step hstep
  cases hchange with
  | same => exact (htaken cell k hcell).concat label
  | @taken cell' g hhandle _ =>
    by_cases hsame : cell' = cell
    · subst hsame
      obtain rfl := Option.some.inj ((Table.get?_set_self ..).symm.trans hcell)
      exact .intro rfl hrun hhandle
    · exact (htaken cell k ((Table.get?_set_of_ne _ _ hsame).symm.trans hcell)).concat _
  | @requested id cell' k' _ hcell' _ =>
    by_cases hsame : cell' = cell
    · subst hsame
      obtain rfl := Option.some.inj ((Table.get?_set_self ..).symm.trans hcell)
      exact (htaken cell' k' hcell').concat _
    · exact (htaken cell k ((Table.get?_set_of_ne _ _ hsame).symm.trans hcell)).concat _

theorem takenFrom_of_run {config : Config} (hrun : (created config).run labels = some t) :
    ∀ cell k, t.cells.get? cell = some k → TakenFrom (created config) labels cell k.target :=
  run_induction
    (P := fun labels t ↦ ∀ cell k, t.cells.get? cell = some k →
      TakenFrom (created config) labels cell k.target)
    (fun _ _ hcell ↦ by cases hcell)
    (fun _ _ _ _ ht htaken hstep _ _ hcell ↦ takenFrom_of_step ht htaken hstep hcell) hrun

/-- What becomes of the calls for a kill in the course of a run. -/
structure Kills (s : Supervisor) (labels : List Label) (t : Supervisor) : Prop where
  /-- A handle is for the child that was in the slot when it was taken. -/
  target : ∀ cell k, t.cells.get? cell = some k → TakenFrom s labels cell k.target
  /-- A call sends a signal to the child of its handle, and only as long as this child is in the
  slot and nobody has reaped it. It comes back saying so if and only if it does. -/
  signal : ∀ before id cell since, labels = before ++ .call id (.kill cell) :: since →
    .leave id ∉ since → ∀ label u, label.caller? = some id → label ≠ .leave id →
      t.step label = some u → Signal t id cell u
  /-- Of all calls through the copies of one handle, one at most comes back saying that it sent the
  signal. -/
  sole : ∀ cell before id before' id', Returned s labels before id cell true →
    Returned s labels before' id' cell true → before = before' ∧ id = id'
  /-- After a call has come back, whatever it says, the kill shows on all copies of the handle. -/
  shown : ∀ cell before id sent, Returned s labels before id cell sent → t.isKilled cell = true

/-- Calls for a kill through copies of a handle only ever signal the child that was in the slot when
it was taken, while that child is there and not reaped. One of them at most says that it sent the
signal, and after any of them the kill shows on all copies for good. -/
theorem kills_of_run {config : Config} {launch : Launch} {equip : Equip}
    {wardenFault : Option IoFault} (hcreate : create config launch equip wardenFault = .ok s)
    (hrun : s.run labels = some t) : Kills s labels t := by
  cases create_eq_ok hcreate
  have hs : t.Reachable := (reachable_created config).run hrun
  refine ⟨takenFrom_of_run hrun, ?_, fun _ _ _ _ _ ↦ Returned.sole,
    fun _ _ _ _ h ↦ h.isKilled hrun⟩
  rintro before id cell since rfl hstays label u hown hstays' hstep
  exact signal_of_step hs hstays hrun hstep hown hstays'

/-- The first child, of which a handle was taken, is stopped and another one started. A kill through
the handle comes too late, and one through a handle of the second child does not. -/
def killedThroughBoth : List Label :=
  [.handle 0, .call 0 .stop, .proceed 0, .proceed 0, .call 1 .start, .proceed 1,
    .launch (.caller 1) .launched, .equip (.caller 1) .equipped, .handle 1, .call 2 (.kill 0),
    .proceed 2, .proceed 2, .call 3 (.kill 1), .proceed 3, .proceed 3]

/-- A kill of a child that has been replaced spares the other one and shows all the same, and no
second kill through the other handle says that it sent the signal. -/
theorem kills_of_replaced :
    ∃ t u, (created {}).run (killedThroughBoth.take 11) = some t ∧
      (∀ v, t.step (.proceed 2) = some v → v.children = t.children) ∧
      (created {}).run killedThroughBoth = some u ∧ u.isKilled 0 = true ∧
      ∀ before id, Returned (created {}) killedThroughBoth before id 1 true → id = 3 := by
  have hcreate : create {} .launched .equipped none = .ok (created {}) := rfl
  have hearly : (created {}).run (killedThroughBoth.take 11) = some _ := rfl
  have hrun : (created {}).run killedThroughBoth = some _ := rfl
  have hstale : Returned (created {}) killedThroughBoth (killedThroughBoth.take 9) 2 0 false :=
    .intro (by decide : _ ++ _ :: [.proceed 2, .proceed 2] <+: _) (by decide) rfl rfl
  have hsent : Returned (created {}) killedThroughBoth (killedThroughBoth.take 12) 3 1 true :=
    .intro (by decide : _ ++ _ :: [.proceed 3, .proceed 3] <+: _) (by decide) rfl rfl
  refine ⟨_, _, hearly, fun v hstep ↦ ?_, hrun, (kills_of_run hcreate hrun).shown _ _ _ _ hstale,
    fun before id h ↦ ((kills_of_run hcreate hrun).sole _ _ _ _ _ h hsent).2⟩
  cases (kills_of_run hcreate hearly).signal (killedThroughBoth.take 9) 2 0 [.proceed 2] rfl
    (by decide) (.proceed 2) v rfl (by decide) hstep with
  | sent hcell _ hhandle =>
    cases hcell
    cases hhandle
  | unsent hchildren => exact hchildren

end

end Sidecar.Supervisor
