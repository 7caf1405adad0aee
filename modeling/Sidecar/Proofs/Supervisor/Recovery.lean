import Sidecar.Proofs.Supervisor.Books

/-!
# Answers that come late

A child may answer every request with one frame of its output, in order, and write errors whenever it
likes (`Responds`). An exchange that fails because of an error leaves its answer behind: nobody takes
it out of the queue but a later exchange, or the warden when the child is gone. So an exchange takes
the answer to an earlier request as soon as more exchanges have been forsaken than answers were thrown
away, and not before (`recovers_iff_not_fallsBehind`).
-/

namespace Sidecar.Supervisor

open Sidecar.Frame

/-- The answers to the first requests. -/
def firstAnswers (answers : Nat → Frame) (n : Nat) : List Frame := (List.range n).map answers

/-- In a run a child answers each request with one frame, in order, and writes nothing else to its
output. Nothing is said of its errors. -/
structure Responds (s : Supervisor) (labels : List Label) (g : Generation)
    (answers : Nat → Frame) : Prop where
  /-- Every answer is one frame for the reader of its output. -/
  readable : ∀ k, (answers k).IsRead s.config.codecRecv s.config.limit
  /-- At any time it has answered the requests that it may have seen, or a part of them. -/
  solicited : ∀ past u c, past <+: labels → s.run past = some u → u.children.get? g = some c →
    written past g .out <+: wire (firstAnswers answers c.begun)
  /-- When its output ends, no answer is cut off. -/
  whole : ∀ past u c, past <+: labels → s.run past = some u → u.children.get? g = some c →
    hasEnded past g .out = true → ∃ n ≤ c.begun, written past g .out = wire (firstAnswers answers n)

/-- After a run a caller, which wrote the request with a number to a child, takes an answer in its
next step. -/
structure Answered (s : Supervisor) (past : List Label) (g : Generation) (id : CallerId) (n : Nat)
    (token : Bytes) : Prop where
  written : ∃ before between u frame, past = before ++ .written id :: between ∧
    (∀ label ∈ between, label.caller? ≠ some id) ∧ s.run before = some u ∧
    u.callers.get? id = some (.writing g frame) ∧ u.requestCount g = n
  answered : ∃ t, s.run (past ++ [.receive id .out]) = some t ∧
    t.callers.get? id = some (.done (.answer token))

/-- No exchange of a run returns what answers an earlier request. -/
def Recovers (s : Supervisor) (labels : List Label) (g : Generation) : Prop :=
  ∀ past id n token, past ++ [.receive id .out] <+: labels → s.Answered past g id n token →
    n ≤ s.answerNumber past g

/-- Some exchange of a run takes an answer when more exchanges have been forsaken than answers have
been thrown away. -/
def FallsBehind (s : Supervisor) (labels : List Label) (g : Generation) : Prop :=
  ∃ past id n token, past ++ [.receive id .out] <+: labels ∧ s.Answered past g id n token ∧
    (s.discarded past g).length < (s.forsaken past g).length

section

variable {config : Config} {labels past : List Label} {label : Label} {g : Generation}
  {answers : Nat → Frame} {s u v w : Supervisor} {c c' : Child} {id : CallerId} {post post' : Caller}
  {n : Nat} {token : Bytes}

/-! ## Who writes -/

/-- A caller that has moved and was not writing does not change who writes. -/
private theorem writing_of_moved {writer : CallerId}
    (hwriting : ∃ frame, u.callers.get? writer = some (.writing g frame))
    (hpost : u.callers.get? id = some post) (hnot : ∀ frame, post ≠ .writing g frame)
    (hcallers : v.callers = u.callers.set id post') :
    ∃ frame, v.callers.get? writer = some (.writing g frame) := by
  obtain ⟨frame, hwriter⟩ := hwriting
  refine ⟨frame, (get?_of_moved hcallers fun heq ↦ ?_).trans hwriter⟩
  subst heq
  exact hnot frame (Option.some.inj (hpost.symm.trans hwriter))

/-- A step of an exchange lets whoever has locked the child's input write to it. -/
private theorem writing_of_leg {writer : CallerId} (hleg : Leg u id g c post label v)
    (hpost : u.callers.get? id = some post) (hchild : u.children.get? g = some c)
    (hchild' : v.children.get? g = some c')
    (hwriting : ∀ writer, c.writer = some writer →
      ∃ frame, u.callers.get? writer = some (.writing g frame))
    (hwriter : c'.writer = some writer) :
    ∃ frame, v.callers.get? writer = some (.writing g frame) := by
  have hmodified : ∀ f : Child → Child, (u.children.modify g f).get? g = some (f c) := by
    intro f
    rw [Table.get?_modify, if_pos rfl, hchild]
    rfl
  cases hleg with
  | @entered frame _ _ =>
    cases (hmodified _).symm.trans hchild'
    cases hwriter
    exact ⟨frame, Table.get?_set_self ..⟩
  | shut hfree _ =>
    cases hchild.symm.trans hchild'
    cases hfree.symm.trans hwriter
  | written | unwritten =>
    cases (hmodified _).symm.trans hchild'
    cases hwriter
  | answered | complained | collected =>
    cases (hmodified _).symm.trans hchild'
    rw [writer_setOutlet] at hwriter
    exact writing_of_moved (hwriting writer hwriter) hpost (by simp) rfl
  | parted | concluded =>
    cases hchild.symm.trans hchild'
    exact writing_of_moved (hwriting writer hwriter) hpost (by simp) rfl

/-- Whoever has locked a child's input writes to it. -/
theorem writing_of_writer (hrun : (created config).run past = some u)
    (hchild : u.children.get? g = some c) (hwriter : c.writer = some id) :
    ∃ frame, u.callers.get? id = some (.writing g frame) := by
  refine run_induction (P := fun _ u ↦ ∀ c id, u.children.get? g = some c → c.writer = some id →
    ∃ frame, u.callers.get? id = some (.writing g frame)) (fun c id hchild hwriter ↦ ?_)
    (fun past label t v hrun ih hstep c' writer hchild' hwriter ↦ ?_) hrun c id hchild hwriter
  · simp only [created, Table.get?_set, Table.get?_empty] at hchild
    split at hchild
    · cases hchild
      cases hwriter
    · cases hchild
  · have ht := (reachable_created config).run hrun
    cases hchild : t.children.get? g with
    | none =>
      rcases launched_of_step hstep hchild with hnone | ⟨holder, -, hfresh⟩
      · cases hnone.symm.trans hchild'
      · cases hfresh.symm.trans hchild'
        cases hwriter
    | some c =>
      obtain ⟨c'', hchild'', htouch⟩ := touch_of_step hstep (ht.le_of_child hchild) hchild
      obtain rfl := Option.some.inj (hchild'.symm.trans hchild'')
      rcases leg_or_nobody_of_step hstep hchild with ⟨id, post, -, hpost, hleg⟩ | hnobody
      · exact writing_of_leg hleg hpost hchild hchild' (fun writer ↦ ih c writer hchild) hwriter
      · rw [(requests_of_touch hnobody htouch).2] at hwriter
        obtain ⟨frame, hpost⟩ := ih c writer hchild hwriter
        exact ⟨frame, (engaged_iff_of_step ht hstep hnobody writer _ rfl).mpr hpost⟩

/-! ## What an exchange takes -/

/-- While a caller waits for an answer nobody else writes a request. -/
theorem requestCount_of_waits (hserial : Serialized s labels g) (hwithin : past <+: labels)
    (hrun : s.run past = some u) (hu : u.Reachable) (hstep : u.step label = some v)
    (hpost : u.callers.get? id = some (.awaiting g)) : v.requestCount g = u.requestCount g := by
  obtain ⟨c, hchild⟩ := hu.child_of_partner hpost rfl
  rcases leg_or_nobody_of_step hstep hchild with ⟨id', post', -, hpost', hleg⟩ | hnobody
  · obtain ⟨c', hchild', ⟨frame, rfl, -, -⟩ | ⟨-, hrequests⟩⟩ := hleg.requests hchild
    · obtain rfl := hserial past u id id' _ _ hwithin hrun hpost hpost' rfl rfl
      cases hpost.symm.trans hpost'
    · rw [requestCount_of_child hchild, requestCount_of_child hchild', hrequests]
  · exact requestCount_of_nobody hu hstep hnobody

/-- A caller that has written its request and makes no step waits for the answer, and its request is
the latest one. -/
private theorem awaiting_of_quiet {before between : List Label} {frame : Bytes}
    (hserial : Serialized (created config) labels g)
    (hwithin : before ++ .written id :: between <+: labels)
    (hquiet : ∀ label ∈ between, label.caller? ≠ some id)
    (hbefore : (created config).run before = some u)
    (hwriting : u.callers.get? id = some (.writing g frame)) (hstep : u.step (.written id) = some w)
    (hrun : w.run between = some v) :
    v.callers.get? id = some (.awaiting g) ∧ v.requestCount g = u.requestCount g + 1 := by
  have hu := (reachable_created config).run hbefore
  have hwritten : (created config).run (before ++ [.written id]) = some w :=
    run_concat_eq_some.mpr ⟨u, hbefore, hstep⟩
  refine run_induction (P := fun between v ↦ before ++ .written id :: between <+: labels →
    (∀ label ∈ between, label.caller? ≠ some id) →
      v.callers.get? id = some (.awaiting g) ∧ v.requestCount g = u.requestCount g + 1)
    (fun _ _ ↦ ?_) (fun between label t v hrun ih hstep hwithin hquiet ↦ ?_) hrun hwithin hquiet
  · obtain ⟨c, hchild⟩ := hu.child_of_partner hwriting rfl
    cases leg_of_step hstep rfl hwriting rfl hchild with
    | written =>
      refine ⟨Table.get?_set_self .., ?_⟩
      rw [requestCount_modifyChild hchild, requestCount_of_child hchild, List.length_cons]
  · have hsplit : before ++ .written id :: (between ++ [label]) =
        before ++ .written id :: between ++ [label] := by simp
    rw [hsplit] at hwithin
    have hpast : before ++ .written id :: between <+: labels :=
      (List.prefix_append _ _).trans hwithin
    have hother : label.caller? ≠ some id := hquiet label (by simp)
    obtain ⟨hpost, hcount⟩ := ih hpast fun label hlabel ↦ hquiet label (List.mem_append_left _ hlabel)
    have ht : (created config).run (before ++ .written id :: between) = some t := by
      rw [List.append_cons, run_append, hwritten]
      exact hrun
    exact ⟨(get?_callers_of_step hstep hother).trans hpost,
      (requestCount_of_waits hserial hpast ht ((reachable_created config).run ht) hstep
        hpost).trans hcount⟩

/-- An exchange that takes an answer takes the oldest token of the child's output, and its request is
the latest one. -/
theorem Answered.takes (h : (created config).Answered past g id n token)
    (hserial : Serialized (created config) labels g) (hwithin : past <+: labels) :
    ∃ v c rest, (created config).run past = some v ∧ v.callers.get? id = some (.awaiting g) ∧
      v.children.get? g = some c ∧ c.out.queue = token :: rest ∧ v.requestCount g = n + 1 := by
  obtain ⟨before, between, u, frame, rfl, hquiet, hbefore, hwriting, rfl⟩ := h.written
  obtain ⟨t, hrun, hdone⟩ := h.answered
  obtain ⟨v, hpast, hstep⟩ := run_concat_eq_some.mp hrun
  have hparts := hpast
  rw [run_append, hbefore, Option.bind_some, run_cons] at hparts
  obtain ⟨w, hwritten, hbetween⟩ := Option.bind_eq_some_iff.mp hparts
  obtain ⟨hpost, hcount⟩ :=
    awaiting_of_quiet hserial hwithin hquiet hbefore hwriting hwritten hbetween
  obtain ⟨c, hchild⟩ := ((reachable_created config).run hpast).child_of_partner hpost rfl
  cases leg_of_step hstep rfl hpost rfl hchild with
  | @answered token' rest hqueue =>
    cases (Table.get?_set_self ..).symm.trans hdone
    exact ⟨v, c, rest, hpast, hpost, hchild, hqueue, hcount⟩
  | parted => cases (Table.get?_set_self ..).symm.trans hdone

/-! ## What a child's output holds -/

/-- The first answers among those to more requests. -/
theorem firstAnswers_take {k m : Nat} (h : k ≤ m) :
    (firstAnswers answers m).take k = firstAnswers answers k := by
  rw [firstAnswers, firstAnswers, ← List.map_take, List.take_range, Nat.min_eq_left h]

/-- The tokens of a child that answers each request are answers, in order. -/
theorem Responds.tokens_eq (h : Responds (created config) labels g answers)
    (hwithin : past <+: labels) (hrun : (created config).run past = some u)
    (hchild : u.children.get? g = some c) :
    ∃ m ≤ c.begun, (created config).taken past g .out ++ c.out.queue =
      payloads (firstAnswers answers m) := by
  have hreadable : ∀ m, ∀ f ∈ firstAnswers answers m, f.IsRead config.codecRecv config.limit := by
    intro m f hf
    obtain ⟨k, -, rfl⟩ := List.mem_map.mp hf
    exact h.readable k
  have hall : (created config).taken past g .out ++ c.out.queue =
      config.codecRecv.tokens config.limit (hasEnded past g .out) (written past g .out) :=
    taken_append_queue hrun hchild .out
  rw [hall]
  cases hended : hasEnded past g .out with
  | true =>
    obtain ⟨m, hm, hwritten⟩ := h.whole past u c hwithin hrun hchild hended
    refine ⟨m, hm, ?_⟩
    rw [hwritten, tokens_of_wire_ended (hreadable m) (limit_pos config)]
  | false =>
    obtain ⟨whole, hwhole, -, htokens⟩ := tokens_of_prefix (hreadable c.begun)
      (h.solicited past u c hwithin hrun hchild) (limit_pos config)
    have hlength := hwhole.length_le
    rw [firstAnswers, List.length_map, List.length_range] at hlength
    refine ⟨whole.length, hlength, ?_⟩
    rw [htokens, ← firstAnswers_take hlength, ← List.prefix_iff_eq_take.mp hwhole]

/-- The number of an answer that is taken tells which one it is, and its request has been written. -/
theorem Answered.token_eq (h : (created config).Answered past g id n token)
    (hresponds : Responds (created config) labels g answers)
    (hserial : Serialized (created config) labels g) (hwithin : past <+: labels) :
    (answers ((created config).answerNumber past g)).token = token ∧
      (created config).answerNumber past g ≤ n := by
  obtain ⟨v, c, rest, hrun, hpost, hchild, hqueue, hcount⟩ := h.takes hserial hwithin
  obtain ⟨m, hm, htokens⟩ := hresponds.tokens_eq hwithin hrun hchild
  rw [hqueue] at htokens
  have hwriter : c.writer = none := by
    cases hlocked : c.writer with
    | none => rfl
    | some writer =>
      obtain ⟨frame, hwriting⟩ := writing_of_writer hrun hchild hlocked
      obtain rfl := hserial past v id writer _ _ hwithin hrun hpost hwriting rfl rfl
      cases hpost.symm.trans hwriting
  have hbegun : c.begun = n + 1 := by
    rw [Child.begun, hwriter, ← hcount, requestCount_of_child hchild]
    rfl
  have hlength := congrArg List.length htokens
  simp only [List.length_append, List.length_cons, payloads, firstAnswers, List.length_map,
    List.length_range] at hlength
  have hget := congrArg (·[(created config).answerNumber past g]?) htokens
  have hlt : (created config).answerNumber past g < m := by
    rw [answerNumber]
    omega
  simp only [answerNumber, payloads, firstAnswers, List.map_map] at hget hlt ⊢
  rw [List.getElem?_append_right (Nat.le_refl _), List.getElem?_map, List.getElem?_range hlt]
    at hget
  refine ⟨?_, by omega⟩
  simpa using hget.symm

/-- An exchange is behind by the exchanges that were forsaken before it, less the answers that were
thrown away. -/
theorem Answered.lag (h : (created config).Answered past g id n token)
    (hserial : Serialized (created config) labels g) (hwithin : past <+: labels) :
    (created config).answerNumber past g + ((created config).forsaken past g).length =
      n + ((created config).discarded past g).length := by
  obtain ⟨v, c, rest, hrun, hpost, -, -, hcount⟩ := h.takes hserial hwithin
  cases balanced_of_run hserial hwithin hrun with
  | settled hnobody _ => exact absurd rfl (hnobody id _ hpost)
  | awaited _ _ hbalance => omega

/-- Answers of a child are thrown away only when it has been reaped. -/
theorem discarded_of_isLive (hrun : (created config).run past = some u) (hlive : u.isLive g = true) :
    (created config).discarded past g = [] := by
  have hgone : (created config).discarded past g ≠ [] → u.isLive g = false ∧ g ≤ u.generation := by
    refine run_induction (P := fun past u ↦ (created config).discarded past g ≠ [] →
      u.isLive g = false ∧ g ≤ u.generation) (fun hsome ↦ absurd rfl hsome)
      (fun past label t v hrun ih hstep hsome ↦ ?_) hrun
    have ht := (reachable_created config).run hrun
    have hpassing := passing_of_move ht.locked (move_of_step hstep)
    by_cases hbefore : (created config).discarded past g = []
    · rw [discarded_concat hrun hstep, hbefore, List.nil_append] at hsome
      have hdraining : t.warden = .draining g := draining_of_discards? fun hnone ↦ hsome (by
        rw [hnone]
        rfl)
      obtain ⟨hdead, hle⟩ := ht.not_isLive_of_draining hdraining
      exact hpassing.not_isLive hdead hle
    · obtain ⟨hdead, hle⟩ := ih hbefore
      exact hpassing.not_isLive hdead hle
  by_cases hnone : (created config).discarded past g = []
  · exact hnone
  · cases (hgone hnone).1.symm.trans hlive

/-- Where a child answers each request with one frame, in order, and exchanges with it do not overlap,
every answer that an exchange takes belongs to its own request or to an earlier one. It is behind by
the number of earlier exchanges that failed after their requests had been written, less the number of
answers that the warden threw away, which it only does with those of a dead child. So no exchange
returns the answer to an earlier request in exactly the runs that do not fall behind. -/
theorem recovers_iff_not_fallsBehind {launch : Launch} {equip : Equip}
    {wardenFault : Option IoFault} (hcreate : create config launch equip wardenFault = .ok s)
    (hresponds : Responds s labels g answers) (hserial : Serialized s labels g) :
    (Recovers s labels g ↔ ¬ FallsBehind s labels g) ∧
      ∀ past id n token, past ++ [.receive id .out] <+: labels → s.Answered past g id n token →
        (answers (s.answerNumber past g)).token = token ∧ s.answerNumber past g ≤ n ∧
          s.answerNumber past g + (s.forsaken past g).length = n + (s.discarded past g).length ∧
          ∀ u, s.run past = some u → u.isLive g = true → s.discarded past g = [] := by
  cases create_eq_ok hcreate
  refine ⟨⟨?_, fun hkeeps past id n token hwithin hanswered ↦ ?_⟩,
    fun past id n token hwithin hanswered ↦ ?_⟩
  · rintro hrecovers ⟨past, id, n, token, hwithin, hanswered, hlt⟩
    have hown := hrecovers past id n token hwithin hanswered
    have hlag := hanswered.lag hserial ((List.prefix_append _ _).trans hwithin)
    omega
  · have hlag := hanswered.lag hserial ((List.prefix_append _ _).trans hwithin)
    by_cases hlt : ((created config).discarded past g).length <
        ((created config).forsaken past g).length
    · exact absurd ⟨past, id, n, token, hwithin, hanswered, hlt⟩ hkeeps
    · omega
  · have hpast : past <+: labels := (List.prefix_append _ _).trans hwithin
    obtain ⟨htoken, hle⟩ := hanswered.token_eq hresponds hserial hpast
    exact ⟨htoken, hle, hanswered.lag hserial hpast, fun u hrun ↦ discarded_of_isLive hrun⟩

end

/-! ## Two runs -/

/-- Whether a child answers each request along a run in which its output stays open can be seen state
by state. -/
theorem responds_of_holdsAlong {config : Config} {labels : List Label} {g : Generation}
    {answers : Nat → Frame} (hreadable : ∀ k, (answers k).IsRead config.codecRecv config.limit)
    (hunended : Label.endStream g .out ∉ labels)
    (hobeys : (created config).holdsAlong labels (fun past u ↦
      (u.children.get? g).all fun c ↦
        (written past g .out).isPrefixOf (wire (firstAnswers answers c.begun))) = true) :
    Responds (created config) labels g answers := by
  refine ⟨hreadable, fun past u c hwithin hrun hchild ↦ ?_,
    fun past u c hwithin hrun hchild hended ↦ ?_⟩
  · have hhere := of_holdsAlong hobeys hwithin hrun
    simp only [hchild, Option.all_some] at hhere
    exact List.isPrefixOf_iff_prefix.mp hhere
  · obtain ⟨label, hlabel, hends⟩ := List.any_eq_true.mp hended
    rw [of_decide_eq_true hends] at hlabel
    exact absurd (hwithin.subset hlabel) hunended

/-- An exchange of a run can be seen from its first state and its last one. -/
theorem Answered.of_views {s : Supervisor} {before between : List Label} {g : Generation}
    {id : CallerId} {n : Nat} {token : Bytes} (frame : Bytes)
    (hquiet : ∀ label ∈ between, label.caller? ≠ some id)
    (hwriting : (s.run before).map (fun u ↦ (u.callers.get? id, u.requestCount g)) =
      some (some (.writing g frame), n))
    (hdone : (s.run (before ++ .written id :: between ++ [.receive id .out])).map
      (·.callers.get? id) = some (some (.done (.answer token)))) :
    s.Answered (before ++ .written id :: between) g id n token := by
  obtain ⟨u, hrun, hview⟩ := Option.map_eq_some_iff.mp hwriting
  obtain ⟨hpost, hcount⟩ := Prod.mk.inj hview
  exact ⟨⟨before, between, u, frame, rfl, hquiet, hrun, hpost, hcount⟩,
    Option.map_eq_some_iff.mp hdone⟩

/-- One line for each number. -/
def numbered (k : Nat) : Frame :=
  if k = 0 then ⟨[0x30, 0x0a], [0x30]⟩ else ⟨[0x31, 0x0a], [0x31]⟩

theorem isRead_numbered (k : Nat) : (numbered k).IsRead .lines ({} : Config).limit := by
  unfold numbered
  split <;> exact ⟨by decide, by decide⟩

/-- A child complains and answers; callers see an answer, an answer, and last the complaint. -/
def punctual : List Label :=
  [.call 0 (.exchange [0x61, 0x0a]), .proceed 0, .proceed 0, .written 0, .emit 1 .err [0x78, 0x0a],
    .emit 1 .out [0x30, 0x0a], .receive 0 .out, .call 1 (.exchange [0x62, 0x0a]), .proceed 1,
    .proceed 1, .written 1, .emit 1 .out [0x31, 0x0a], .receive 1 .out,
    .call 2 (.exchange [0x63, 0x0a]), .proceed 2, .proceed 2, .written 2, .receive 2 .err,
    .windowOver 2]

/-- Both answers that are returned belong to their requests. -/
theorem recovers_of_punctual :
    Responds (created {}) punctual 1 numbered ∧ Serialized (created {}) punctual 1 ∧
      Recovers (created {}) punctual 1 ∧ (created {}).forsaken punctual 1 = [2] ∧
      (numbered ((created {}).answerNumber (punctual.take 12) 1)).token = [0x31] := by
  have hcreate : create {} .launched .equipped none = .ok (created {}) := rfl
  have hresponds : Responds (created {}) punctual 1 numbered :=
    responds_of_holdsAlong isRead_numbered (by decide) (by decide +kernel)
  have hserial : Serialized (created {}) punctual 1 := serialized_of_holdsAlong (by decide +kernel)
  obtain ⟨hiff, hfacts⟩ := recovers_iff_not_fallsBehind hcreate hresponds hserial
  refine ⟨hresponds, hserial, hiff.mpr ?_, by decide +kernel, ?_⟩
  · rintro ⟨past, id, n, token, hwithin, hanswered, hlt⟩
    -- Only the last step of the run is an exchange's failure, and it takes no answer.
    have hnone : (created {}).holdsAlong punctual (fun past _ ↦
        past.length = punctual.length || ((created {}).forsaken past 1).isEmpty) = true := by
      decide +kernel
    obtain ⟨t, hrun, -⟩ := hanswered.answered
    obtain ⟨v, hpast, -⟩ := run_concat_eq_some.mp hrun
    have hhere := of_holdsAlong hnone ((List.prefix_append _ _).trans hwithin) hpast
    have hshorter : past.length + 1 ≤ punctual.length := by simpa using hwithin.length_le
    rw [decide_eq_false (by omega), Bool.false_or] at hhere
    rw [List.isEmpty_iff.mp hhere] at hlt
    cases hlt
  · have hanswered : (created {}).Answered (punctual.take 10 ++ [.written 1, .emit 1 .out [0x31, 0x0a]])
        1 1 1 [0x31] :=
      .of_views [0x62, 0x0a] (by decide) (by decide +kernel) (by decide +kernel)
    exact (hfacts (punctual.take 12) 1 1 [0x31] (by decide) hanswered).1

/-- The answer to a request comes when its exchange has already ended with the child's complaint. -/
def late : List Label :=
  [.call 0 (.exchange [0x61, 0x0a]), .proceed 0, .proceed 0, .written 0, .emit 1 .err [0x78, 0x0a],
    .receive 0 .err, .windowOver 0, .emit 1 .out [0x30, 0x0a], .call 1 (.exchange [0x62, 0x0a]),
    .proceed 1, .proceed 1, .written 1, .receive 1 .out]

/-- The next exchange returns the late answer instead of its own. -/
theorem not_recovers_of_late : ∃ s labels answers, create {} .launched .equipped none = .ok s ∧
    Responds s labels 1 answers ∧ Serialized s labels 1 ∧
    (∃ t, s.run labels = some t ∧
      t.callers.get? 0 = some (.done (.failed (.subprocess "x"))) ∧
      t.callers.get? 1 = some (.done (.answer (answers 0).token)) ∧
      (answers 0).token ≠ (answers 1).token) ∧
    ¬ Recovers s labels 1 := by
  have hends : ((created {}).run late).map (fun t ↦ (t.callers.get? 0, t.callers.get? 1)) =
      some (some (.done (.failed (.subprocess "x"))), some (.done (.answer [0x30]))) := by
    decide +kernel
  obtain ⟨t, hrun, hposts⟩ := Option.map_eq_some_iff.mp hends
  obtain ⟨hfirst, hsecond⟩ := Prod.mk.inj hposts
  refine ⟨created {}, late, numbered, rfl,
    responds_of_holdsAlong isRead_numbered (by decide) (by decide +kernel),
    serialized_of_holdsAlong (by decide +kernel), ⟨t, hrun, hfirst, hsecond, by decide⟩, ?_⟩
  intro hrecovers
  have hanswered : (created {}).Answered (late.take 11 ++ [.written 1]) 1 1 1 [0x30] :=
    .of_views [0x62, 0x0a] (by decide) (by decide +kernel) (by decide +kernel)
  exact absurd (hrecovers (late.take 12) 1 1 [0x30] (by decide) hanswered) (by decide +kernel)

end Sidecar.Supervisor
