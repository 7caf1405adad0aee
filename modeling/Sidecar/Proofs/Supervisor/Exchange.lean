import Sidecar.Proofs.Supervisor.History
import Sidecar.Proofs.Supervisor.Latest
import Sidecar.Proofs.Supervisor.Legs

/-!
# What an exchange comes to

An exchange looks once for the child in the slot. That child is the latest one, and from then on the
exchange is with it alone, whatever happens to the slot meanwhile: it writes one frame to it at most,
and what it returns comes from that child's streams. An answer is the oldest token of the child's
output that nobody has taken, and an error begins with the oldest such line.
-/

namespace Sidecar.Supervisor

/-- After a run a caller takes a token from a child's stream: the first that the child's bytes make
and nobody has taken. It is gone then, and the children are as they were otherwise. -/
inductive Receipt (s : Supervisor) (past : List Label) (id : CallerId) (g : Generation)
    (stream : Stream) (token : Bytes) : Prop where
  | intro {u v : Supervisor} {c : Child} {rest : List Bytes} (hrun : s.run past = some u)
      (hchild : u.children.get? g = some c) (hqueue : (c.outlet stream).queue = token :: rest)
      (htokens : s.tokens past g stream = s.taken past g stream ++ token :: rest)
      (hstep : u.step (.receive id stream) = some v)
      (hchildren : v.children = u.children.modify g
        (·.setOutlet stream { c.outlet stream with queue := rest })) :
      Receipt s past id g stream token

/-- The lines of an error that a caller has taken from a child since it saw the child, latest
first. -/
inductive Collects (s : Supervisor) (past : List Label) (id : CallerId) (g : Generation) :
    List Label → List Bytes → Prop where
  | first {pre : List Label} {token : Bytes} (hown : ownLabels id pre = [.proceed id, .written id])
      (hreceipt : Receipt s (past ++ pre) id g .err token) :
      Collects s past id g (pre ++ [.receive id .err]) [token]
  | next {pre : List Label} {lines : List Bytes} {token : Bytes}
      (hlines : Collects s past id g pre lines)
      (hreceipt : Receipt s (past ++ pre) id g .err token) :
      Collects s past id g (pre ++ [.receive id .err]) (token :: lines)
  | aside {pre : List Label} {lines : List Bytes} {label : Label}
      (hlines : Collects s past id g pre lines) (hother : label.caller? ≠ some id) :
      Collects s past id g (pre ++ [label]) lines

/-- What the last label of an exchange makes of it, after those since the child was seen. -/
inductive Verdict (s : Supervisor) (past : List Label) (id : CallerId) (g : Generation)
    (pre : List Label) : Label → Outcome → Prop where
  /-- The child has answered. -/
  | answered {token : Bytes} (hown : ownLabels id pre = [.proceed id, .written id])
      (hreceipt : Receipt s (past ++ pre) id g .out token) :
      Verdict s past id g pre (.receive id .out) (.answer token)
  /-- The child has written an error. -/
  | complained {lines : List Bytes} {label : Label}
      (hlabel : label = .windowOver id ∨ label = .receive id .err)
      (hlines : Collects s past id g pre lines) :
      Verdict s past id g pre label (.failed (.subprocess (errorText lines)))
  /-- The child's input was closed. -/
  | shut {u : Supervisor} {c : Child} (hown : ownLabels id pre = [])
      (hrun : s.run (past ++ pre) = some u) (hchild : u.children.get? g = some c)
      (hinput : c.hasInput = false) : Verdict s past id g pre (.proceed id) (.failed .closed)
  /-- The frame could not be written. -/
  | unwritten {cause : IoFault} (hown : ownLabels id pre = [.proceed id]) :
      Verdict s past id g pre (.unwritten id cause)
        (.failed (if cause.kind = .brokenPipe then .closed else .io cause))
  /-- One of the child's streams was disconnected and had nothing left. -/
  | parted {u : Supervisor} {c : Child} {stream : Stream}
      (hown : ownLabels id pre = [.proceed id, .written id])
      (hrun : s.run (past ++ pre) = some u) (hchild : u.children.get? g = some c)
      (hqueue : (c.outlet stream).queue = [])
      (hdisconnected : (c.outlet stream).isDisconnected = true) :
      Verdict s past id g pre (.receive id stream) (.failed .closed)

/-- A caller touches no child but one from some time on, and all that it adds to the child's
requests is one frame. -/
def Confined (s : Supervisor) (past : List Label) (id : CallerId) (g : Generation) (frame : Bytes)
    (after : List Label) : Prop :=
  ∀ pre label post u v, after = pre ++ label :: post → label.caller? = some id →
    s.run (past ++ pre) = some u → u.step label = some v →
    (∀ g', g' ≠ g → v.children.get? g' = u.children.get? g') ∧
      ∃ c c', u.children.get? g = some c ∧ v.children.get? g = some c' ∧
        c'.requests = if label = .written id then frame :: c.requests else c.requests

/-- Where an exchange stands, by the labels since the child was seen. -/
inductive Underway (s : Supervisor) (past : List Label) (id : CallerId) (g : Generation)
    (frame : Bytes) (after : List Label) : Caller → Prop where
  | entering (hown : ownLabels id after = []) :
      Underway s past id g frame after (.entering g frame)
  | writing (hown : ownLabels id after = [.proceed id]) :
      Underway s past id g frame after (.writing g frame)
  | awaiting (hown : ownLabels id after = [.proceed id, .written id]) :
      Underway s past id g frame after (.awaiting g)
  | collecting {lines : List Bytes} (hlines : Collects s past id g after lines) :
      Underway s past id g frame after (.collecting g lines)
  | done {pre : List Label} {last : Label} (post : List Label) {outcome : Outcome}
      (hafter : after = pre ++ last :: post) (hown : ownLabels id post = [])
      (hverdict : Verdict s past id g pre last outcome) :
      Underway s past id g frame after (.done outcome)

/-- Where an exchange with a child stands after a run. -/
structure Course (s : Supervisor) (past : List Label) (id : CallerId) (g : Generation)
    (frame : Bytes) (after : List Label) (t : Supervisor) : Prop where
  confined : Confined s past id g frame after
  child : ∃ c, t.children.get? g = some c
  stands : ∃ post, t.callers.get? id = some post ∧ Underway s past id g frame after post

/-- A caller that is about to look for the child finds the slot unlocked. -/
structure Looks (s : Supervisor) (past : List Label) (id : CallerId) (frame : Bytes)
    (u : Supervisor) : Prop where
  run : s.run past = some u
  sending : u.callers.get? id = some (.sending frame)
  unlocked : u.lock = none

section

variable {s t u v : Supervisor} {id : CallerId} {g : Generation} {frame : Bytes} {c : Child}
  {post : Caller} {label : Label} {labels past after : List Label}

/-! ## One step of an exchange -/

/-- Labels of others leave an exchange where it is. -/
private theorem Underway.aside (h : Underway s past id g frame after post)
    (hother : label.caller? ≠ some id) : Underway s past id g frame (after ++ [label]) post := by
  have hsame := ownLabels_concat_of_ne after hother
  cases h with
  | entering hown => exact .entering (hsame.trans hown)
  | writing hown => exact .writing (hsame.trans hown)
  | awaiting hown => exact .awaiting (hsame.trans hown)
  | collecting hlines => exact .collecting (.aside hlines hother)
  | @done pre last rest outcome hafter hown hverdict =>
    refine .done (rest ++ [label]) (by rw [hafter]; simp) ?_ hverdict
    rw [ownLabels_concat_of_ne rest hother, hown]

private theorem underway_of_last {outcome : Outcome}
    (hverdict : Verdict s past id g after label outcome) :
    Underway s past id g frame (after ++ [label]) (.done outcome) :=
  .done [] rfl rfl hverdict

private theorem receipt_of_leg {config : Config} (stream : Stream) {token : Bytes}
    {rest : List Bytes} (hrun : (created config).run past = some u)
    (hchild : u.children.get? g = some c) (hqueue : (c.outlet stream).queue = token :: rest)
    (hstep : u.step (.receive id stream) = some v)
    (hchildren : v.children = u.children.modify g
      (·.setOutlet stream { c.outlet stream with queue := rest })) :
    Receipt (created config) past id g stream token := by
  refine .intro hrun hchild hqueue ?_ hstep hchildren
  rw [← taken_append_queue hrun hchild stream, hqueue]

/-- A step of an exchange takes it on. -/
private theorem Underway.leg {config : Config}
    (h : Underway (created config) past id g frame after post)
    (hrun : (created config).run (past ++ after) = some u) (hchild : u.children.get? g = some c)
    (hstep : u.step label = some v) (hown : label.caller? = some id)
    (hleg : Leg u id g c post label v) :
    ∃ post', v.callers.get? id = some post' ∧
      Underway (created config) past id g frame (after ++ [label]) post' := by
  have hnext := ownLabels_concat after hown
  cases hleg with
  | entered =>
    cases h with
    | entering hnone => exact ⟨_, Table.get?_set_self .., .writing (by rw [hnext, hnone]; rfl)⟩
  | shut _ hinput =>
    cases h with
    | entering hnone =>
      exact ⟨_, Table.get?_set_self .., underway_of_last (.shut hnone hrun hchild hinput)⟩
  | written =>
    cases h with
    | writing hbefore =>
      exact ⟨_, Table.get?_set_self .., .awaiting (by rw [hnext, hbefore]; rfl)⟩
  | unwritten =>
    cases h with
    | writing hbefore =>
      exact ⟨_, Table.get?_set_self .., underway_of_last (.unwritten hbefore)⟩
  | answered hqueue =>
    cases h with
    | awaiting hbefore =>
      have hreceipt := receipt_of_leg .out hrun hchild hqueue hstep rfl
      exact ⟨_, Table.get?_set_self .., underway_of_last (.answered hbefore hreceipt)⟩
  | complained hqueue =>
    cases h with
    | awaiting hbefore =>
      have hreceipt := receipt_of_leg .err hrun hchild hqueue hstep rfl
      exact ⟨_, Table.get?_set_self .., .collecting (.first hbefore hreceipt)⟩
  | parted hqueue hdisconnected =>
    cases h with
    | awaiting hbefore =>
      exact ⟨_, Table.get?_set_self ..,
        underway_of_last (.parted hbefore hrun hchild hqueue hdisconnected)⟩
  | collected hqueue =>
    cases h with
    | collecting hlines =>
      have hreceipt := receipt_of_leg .err hrun hchild hqueue hstep rfl
      exact ⟨_, Table.get?_set_self .., .collecting (.next hlines hreceipt)⟩
  | concluded hlabel =>
    cases h with
    | collecting hlines =>
      exact ⟨_, Table.get?_set_self ..,
        underway_of_last (.complained (hlabel.imp_right And.left) hlines)⟩

/-! ## From the look on -/

/-- A run that goes on after a caller has a partner, where the last label is the caller's. -/
private theorem confined_concat (hconfined : Confined s past id g frame after)
    (hlast : label.caller? = some id → ∀ u v, s.run (past ++ after) = some u →
      u.step label = some v → (∀ g', g' ≠ g → v.children.get? g' = u.children.get? g') ∧
        ∃ c c', u.children.get? g = some c ∧ v.children.get? g = some c' ∧
          c'.requests = if label = .written id then frame :: c.requests else c.requests) :
    Confined s past id g frame (after ++ [label]) := by
  intro pre label' post u v heq hown hrun hstep
  rcases List.eq_nil_or_concat post with rfl | ⟨post', last, rfl⟩
  · obtain ⟨rfl, hlabel⟩ := List.append_inj' heq rfl
    obtain rfl := (List.cons.inj hlabel).1
    exact hlast hown u v hrun hstep
  · rw [List.concat_eq_append, ← List.cons_append, ← List.append_assoc] at heq
    exact hconfined pre label' post' u v (List.append_inj' heq rfl).1 hown hrun hstep

private theorem Underway.partner? (h : Underway s past id g frame after post) :
    post.partner? = some g ∨ ∃ outcome, post = .done outcome := by
  cases h with
  | done => exact .inr ⟨_, rfl⟩
  | _ => exact .inl rfl

/-- A step takes an exchange on, or leaves it where it is. -/
private theorem Course.step {config : Config}
    (h : Course (created config) past id g frame after u)
    (hrun : (created config).run (past ++ after) = some u) (hstep : u.step label = some v)
    (hstays : label ≠ .leave id) :
    Course (created config) past id g frame (after ++ [label]) v := by
  obtain ⟨c, hchild⟩ := h.child
  obtain ⟨post, hpost, hunderway⟩ := h.stands
  have hle := ((reachable_created config).run hrun).le_of_child hchild
  obtain ⟨c', hchild', -⟩ := touch_of_step hstep hle hchild
  by_cases hown : label.caller? = some id
  · have hpartner : post.partner? = some g := by
      rcases hunderway.partner? with hpartner | ⟨outcome, rfl⟩
      · exact hpartner
      · exact absurd (leave_of_done hpost hstep hown) hstays
    have hleg := leg_of_step hstep hown hpost hpartner hchild
    refine ⟨confined_concat h.confined fun _ u' v' hrun' hstep' ↦ ?_, ⟨c', hchild'⟩,
      hunderway.leg hrun hchild hstep hown hleg⟩
    rw [hrun] at hrun'
    cases hrun'
    rw [hstep] at hstep'
    cases hstep'
    refine ⟨fun g' ↦ hleg.get?_of_ne, c, ?_⟩
    obtain ⟨c'', hchild'', ⟨frame', rfl, rfl, hrequests⟩ | ⟨hlabel, hrequests⟩⟩ :=
      hleg.requests hchild
    · -- The frame that is written is the one of the call.
      cases hunderway
      exact ⟨c'', hchild, hchild'', by rw [if_pos rfl, hrequests]⟩
    · exact ⟨c'', hchild, hchild'', by rw [if_neg hlabel, hrequests]⟩
  · refine ⟨confined_concat h.confined fun h' ↦ absurd h' hown, ⟨c', hchild'⟩, post, ?_,
      hunderway.aside hown⟩
    rw [get?_callers_of_step hstep hown, hpost]

/-- Where a call to exchange a frame stands: it has not looked for the child yet, it found none, or
its exchange with the child that it found is underway. -/
inductive Calling (s : Supervisor) (past : List Label) (id : CallerId) (frame : Bytes)
    (labels : List Label) (t : Supervisor) : Prop where
  | sending (hpost : t.callers.get? id = some (.sending frame))
  | refused {mid : List Label} (after : List Label) {u : Supervisor}
      (hlabels : labels = mid ++ .proceed id :: after)
      (hlooks : Looks s (past ++ mid) id frame u) (hempty : u.handle = none)
      (hown : ownLabels id after = []) (hpost : t.callers.get? id = some (.done (.failed .closed)))
  | partnered {mid : List Label} (after : List Label) {u : Supervisor} {g : Generation}
      (hlabels : labels = mid ++ .proceed id :: after) (hlooks : Looks s (past ++ mid) id frame u)
      (hhandle : u.handle = some g)
      (hcourse : Course s (past ++ mid ++ [.proceed id]) id g frame after t)

private theorem calling_of_look {config : Config}
    (hrun : (created config).run (past ++ after) = some u)
    (hpost : u.callers.get? id = some (.sending frame)) (hown : label.caller? = some id)
    (hstep : u.step label = some v) :
    Calling (created config) past id frame (after ++ [label]) v := by
  cases own_of_step hstep hown hpost with
  | proceed =>
    have hproceed := hstep
    simp only [step, hpost, Option.bind_some, proceedCaller] at hproceed
    split at hproceed
    · cases hproceed
    · next hlock =>
      have hlooks : Looks (created config) (past ++ after) id frame u :=
        ⟨hrun, hpost, by simpa using hlock⟩
      split at hproceed
      · next hempty =>
        cases hproceed
        exact .refused [] rfl hlooks hempty rfl (Table.get?_set_self ..)
      · next g hhandle =>
        cases hproceed
        refine .partnered [] rfl hlooks hhandle ⟨?_, ?_, _, Table.get?_set_self .., .entering rfl⟩
        · intro pre label post u v heq
          cases pre <;> cases heq
        · exact ((reachable_created config).run hrun).child_of_handle hhandle

/-- A step takes a call on, or leaves it where it is. -/
private theorem Calling.step {config : Config} {labels : List Label}
    (h : Calling (created config) past id frame labels u)
    (hrun : (created config).run (past ++ labels) = some u) (hstep : u.step label = some v)
    (hstays : label ≠ .leave id) : Calling (created config) past id frame (labels ++ [label]) v := by
  cases h with
  | sending hpost =>
    by_cases hown : label.caller? = some id
    · exact calling_of_look hrun hpost hown hstep
    · exact .sending ((get?_callers_of_step hstep hown).trans hpost)
  | @refused mid after u' hlabels hlooks hempty hown hpost =>
    by_cases hlast : label.caller? = some id
    · exact absurd (leave_of_done hpost hstep hlast) hstays
    · refine .refused (after ++ [label]) (by rw [hlabels]; simp) hlooks hempty ?_
        ((get?_callers_of_step hstep hlast).trans hpost)
      rw [ownLabels_concat_of_ne after hlast, hown]
  | @partnered mid after u' g hlabels hlooks hhandle hcourse =>
    refine .partnered (after ++ [label]) (by rw [hlabels]; simp) hlooks hhandle
      (hcourse.step ?_ hstep hstays)
    rw [hlabels] at hrun
    simpa using hrun

/-- In every run after a call to exchange a frame in which the caller stays, the call stands
somewhere. -/
private theorem calling_of_run {config : Config} {before labels : List Label}
    (hbefore : (created config).run (before ++ [.call id (.exchange frame)]) = some s)
    (hrun : s.run labels = some t) (hstays : Label.leave id ∉ labels) :
    Calling (created config) (before ++ [.call id (.exchange frame)]) id frame labels t := by
  refine run_induction (P := fun labels t ↦ Label.leave id ∉ labels →
    Calling (created config) (before ++ [.call id (.exchange frame)]) id frame labels t)
    (fun _ ↦ ?_) (fun labels label t u hrun ih hstep hstays ↦ ?_) hrun hstays
  · obtain ⟨r, -, hcall⟩ := run_concat_eq_some.mp hbefore
    simp only [step] at hcall
    split at hcall
    · cases hcall
      exact .sending (Table.get?_set_self ..)
    · cases hcall
  · rw [List.mem_append, not_or] at hstays
    refine (ih hstays.1).step ?_ hstep fun hlabel ↦ hstays.2 (by rw [hlabel]; simp)
    rw [run_append, hbefore]
    exact hrun

/-- An exchange that has come to something looked for the child once. If there was none, it failed
as closed. Otherwise the child was the latest one, the caller touched no other from then on, wrote
nothing but its frame to it, and the verdict rests on that child: an answer is the oldest token that
its output had left, an error begins with the oldest such line, and the exchange failed as closed
because the child's input was closed, its pipe broke, or one of its streams was disconnected. -/
theorem exchange_with_latest {config : Config} {launch : Launch} {equip : Equip}
    {wardenFault : Option IoFault} {before labels : List Label} {outcome : Outcome}
    (hcreate : create config launch equip wardenFault = .ok s)
    (hrun : s.run (before ++ [.call id (.exchange frame)] ++ labels) = some t)
    (hstays : Label.leave id ∉ labels) (hdone : t.callers.get? id = some (.done outcome)) :
    ∃ mid after u, labels = mid ++ .proceed id :: after ∧
      Looks s (before ++ [.call id (.exchange frame)] ++ mid) id frame u ∧
        (u.handle = none ∧ outcome = .failed .closed ∧ ownLabels id after = [] ∨
          ∃ g pre last post, u.handle = some g ∧ g = u.generation ∧
            after = pre ++ last :: post ∧ ownLabels id post = [] ∧
            Confined s (before ++ [.call id (.exchange frame)] ++ mid ++ [.proceed id]) id g frame
              after ∧
            Verdict s (before ++ [.call id (.exchange frame)] ++ mid ++ [.proceed id]) id g pre last
              outcome) := by
  obtain rfl := create_eq_ok hcreate
  rw [run_append] at hrun
  obtain ⟨r, hbefore, hlabels⟩ := Option.bind_eq_some_iff.mp hrun
  cases calling_of_run hbefore hlabels hstays with
  | sending hpost =>
    rw [hdone] at hpost
    cases hpost
  | @refused mid after u hlabels hlooks hempty hown hpost =>
    rw [hdone] at hpost
    cases hpost
    exact ⟨mid, after, u, hlabels, hlooks, .inl ⟨hempty, rfl, hown⟩⟩
  | @partnered mid after u g hlabels hlooks hhandle hcourse =>
    have hlatest := ((reachable_created config).run hlooks.run).latest.slot g hhandle
    obtain ⟨post, hpost, hunderway⟩ := hcourse.stands
    rw [hdone] at hpost
    cases hpost
    cases hunderway with
    | @done pre last rest _ hafter hown hverdict =>
      exact ⟨mid, after, u, hlabels, hlooks,
        .inr ⟨g, pre, last, rest, hhandle, hlatest, hafter, hown, hcourse.confined, hverdict⟩⟩

/-- A child that has written to its output is stopped, and another one is started. The answer of an
exchange after that is what the other one has written. -/
theorem exchange_with_successor :
    ∃ before labels t, (created {}).run
        (before ++ [.call 2 (.exchange [0x62, 0x0a])] ++ labels) = some t ∧
      Label.emit 1 .out [0x61, 0x0a] ∈ before ∧ Label.leave 2 ∉ labels ∧
      t.callers.get? 2 = some (.done (.answer [0x63])) ∧
      ∃ past g, Receipt (created {}) past 2 g .out [0x63] := by
  have hcreate : create {} .launched .equipped none = .ok (created {}) := rfl
  have hdone : ((created {}).run ([.emit 1 .out [0x61, 0x0a], .call 0 .stop, .proceed 0,
      .proceed 0, .call 1 .start, .proceed 1, .launch (.caller 1) .launched,
      .equip (.caller 1) .equipped] ++ [.call 2 (.exchange [0x62, 0x0a])] ++
      [.proceed 2, .proceed 2, .written 2, .emit 2 .out [0x63, 0x0a],
        .receive 2 .out])).bind (·.callers.get? 2) = some (.done (.answer [0x63])) := by
    cbv
  obtain ⟨t, hrun, hdone⟩ := Option.bind_eq_some_iff.mp hdone
  have hstays : Label.leave 2 ∉ ([.proceed 2, .proceed 2, .written 2,
      .emit 2 .out [0x63, 0x0a], .receive 2 .out] : List Label) := by decide
  refine ⟨_, _, t, hrun, by decide, hstays, hdone, ?_⟩
  obtain ⟨mid, after, u, -, -, ⟨-, houtcome, -⟩ | ⟨g, pre, last, post, -, -, -, -, -, hverdict⟩⟩ :=
    exchange_with_latest hcreate hrun hstays hdone
  · cases houtcome
  · cases hverdict with
    | answered _ hreceipt => exact ⟨_, g, hreceipt⟩

end

end Sidecar.Supervisor
