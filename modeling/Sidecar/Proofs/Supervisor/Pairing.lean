import Sidecar.Proofs.Supervisor.Legs
import Sidecar.Proofs.Supervisor.Replies
import Sidecar.Proofs.Supervisor.Watch

/-!
# Requests and replies in pairs

No token tells which request it answers. Where a child replies to its requests in order and writes
nothing else, and exchanges with it do not overlap, they are paired nevertheless: when a frame is
written all tokens of earlier replies have been taken (`Paired`), so that what comes next replies to
it. Every step keeps this (`Paired.step`), and so it holds in every run (`paired_of_run`).
-/

namespace Sidecar.Supervisor

open Sidecar.Frame

/-- A caller waits for what replies to its frame, and has some lines of it, latest first. -/
inductive Waits (g : Generation) : Caller → List Bytes → Prop where
  | awaiting : Waits g (.awaiting g) []
  | collecting {lines : List Bytes} (hlines : lines ≠ []) : Waits g (.collecting g lines) lines

/-- After a run a caller waits for the reply to the latest request of a child. -/
structure Waiting (s : Supervisor) (replies : Nat → Reply) (past : List Label) (g : Generation)
    (c : Child) (post : Caller) (lines : List Bytes) (n : Nat) : Prop where
  waits : Waits g post lines
  writer : c.writer = none
  latest : c.requests.length = n + 1
  out : HasRead s replies past g .out n []
  err : HasRead s replies past g .err n lines.reverse

/-- After a run nothing is left of the replies to earlier requests, and at most one caller keeps the
child busy. -/
inductive Paired (s : Supervisor) (replies : Nat → Reply) (past : List Label) (g : Generation)
    (u : Supervisor) (c : Child) : Prop where
  | idle (hidle : ∀ id post, u.callers.get? id = some post → post.engaged? ≠ some g)
      (hwriter : c.writer = none)
      (hread : ∀ stream, HasRead s replies past g stream c.requests.length [])
  | writing {id : CallerId} {frame : Bytes} (hpost : u.callers.get? id = some (.writing g frame))
      (hwriter : c.writer = some id)
      (hread : ∀ stream, HasRead s replies past g stream c.requests.length [])
  | waiting {id : CallerId} {post : Caller} {lines : List Bytes} {n : Nat}
      (hpost : u.callers.get? id = some post)
      (hwaiting : Waiting s replies past g c post lines n)

section

variable {config : Config} {labels past : List Label} {label : Label} {g : Generation}
  {replies : Nat → Reply} {u v : Supervisor} {c c' : Child} {stream : Stream} {n : Nat}
  {id : CallerId} {post : Caller} {got lines : List Bytes} {reply : Reply}

/-! ## Callers that keep a child busy -/

/-- A caller keeps its partner busy. -/
theorem partner_of_engaged (h : post.engaged? = some g) : post.partner? = some g := by
  cases post <;> first | exact h | cases h

/-- A caller that waits for a reply keeps the child busy. -/
theorem Waits.engaged (h : Waits g post lines) : post.engaged? = some g := by
  cases h <;> rfl

/-! ## Children that are drained -/

private theorem draining_of_step (hs : u.Reachable) (hstep : u.step label = some v)
    (hbefore : u.warden ≠ .draining g) (hwarden : v.warden = .draining g) :
    v.isLive g = false ∧ g ≤ v.generation := by
  obtain ⟨rfl, hreaping⟩ := reaping_of_step hstep hbefore hwarden
  have hkept : u.kept? (.thread .warden) = some g := by
    rw [kept?, duty?, dutyAmong?, hreaping]
    rfl
  have hle := hs.custody.le_of_kept hkept
  simp only [step, proceedWarden, hreaping] at hstep
  cases hstep
  exact ⟨not_isLive_of_reap rfl, hle⟩

/-- The warden drains children that were reaped. -/
theorem Reachable.not_isLive_of_draining (hs : u.Reachable) (hwarden : u.warden = .draining g) :
    u.isLive g = false ∧ g ≤ u.generation := by
  obtain ⟨config, launch, equip, wardenFault, s₀, hcreate, hreach⟩ := hs
  induction hreach with
  | refl =>
    rw [create_eq_ok hcreate] at hwarden
    cases hwarden
  | @step t v label hprefix hstep ih =>
    have ht : t.Reachable := ⟨config, launch, equip, wardenFault, _, hcreate, hprefix⟩
    by_cases hbefore : t.warden = .draining g
    · obtain ⟨hlive, hle⟩ := ih hbefore
      exact (passing_of_move ht.locked (move_of_step hstep)).not_isLive hlive hle
    · exact draining_of_step ht hstep hbefore hwarden

/-! ## A step of somebody else -/

/-- The streams of a child that replies go on being decoded. -/
private theorem Sight.touch (h : Sight (created config) labels g past u c)
    (hanswers : Answers (created config) labels g replies)
    (hwithin : past ++ [label] <+: labels) (hstep : u.step label = some v)
    (htouch : Touch u g c label c') (hchild' : v.children.get? g = some c') :
    Sight (created config) labels g (past ++ [label]) v c' := by
  have hrun : (created config).run (past ++ [label]) = some v :=
    run_concat_eq_some.mpr ⟨u, h.run, hstep⟩
  refine ⟨hwithin, hrun, hchild', fun stream ↦ ?_⟩
  have hdecoding := h.decoding stream
  cases htouch with
  | aside _ halike =>
    rw [halike.outlet]
    exact hdecoding
  | entered _ _ => cases stream <;> exact hdecoding
  | written _ => cases stream <;> exact hdecoding
  | unwritten _ => cases stream <;> exact hdecoding
  | @taken _ stream' _ _ _ _ =>
    rw [outlet_setOutlet]
    split
    · next hstream =>
      rw [← hstream]
      exact hdecoding
    · exact hdecoding
  | @said stream' bytes hphase =>
    rw [outlet_setOutlet]
    split
    · next hstream =>
      subst hstream
      have hcut := (recorded_of_run h.run g).present c h.child stream
      have hwritten := hanswers.solicited _ v _ stream hwithin hrun hchild'
      have hbrings : (Label.emit g stream bytes).brings g stream = bytes := if_pos ⟨rfl, rfl⟩
      rw [written_concat, hbrings] at hwritten
      exact Outlet.feed_decodes hcut hphase (hanswers.isRead _ stream) hwritten (limit_pos config)
    · exact hdecoding
  | @ended stream' _ => exact absurd (hwithin.subset (by simp)) (hanswers.unended stream')
  | advanced stream' _ _ hbefore _ _ => exact absurd (h.decoding stream') hbefore

/-- A child that runs is not drained. -/
private theorem Sight.not_draining (h : Sight (created config) labels g past u c)
    (hanswers : Answers (created config) labels g replies) : u.warden ≠ .draining g := by
  intro hwarden
  have hrunning := hanswers.alive past u c h.within h.run h.child
  have hlive := (((reachable_created config).run h.run).not_isLive_of_draining hwarden).1
  rw [isLive, standing?, standingAmong?, h.child] at hlive
  simp [Child.standing, hrunning] at hlive

/-- Unless a step is one of an exchange with a child, it takes nothing from the child, and no
request begins or ends. -/
theorem Sight.calm (h : Sight (created config) labels g past u c)
    (hanswers : Answers (created config) labels g replies)
    (hnobody : ∀ id post, label.caller? = some id → u.callers.get? id = some post →
      post.partner? ≠ some g)
    (htouch : Touch u g c label c') :
    c'.requests = c.requests ∧ c'.writer = c.writer ∧ ∀ stream, u.removes label g stream = [] := by
  cases htouch with
  | aside hhushed halike => exact ⟨halike.requests, halike.writer, hhushed.removes⟩
  | entered hpost _ => exact absurd rfl (hnobody _ _ rfl hpost)
  | written hpost => exact absurd rfl (hnobody _ _ rfl hpost)
  | unwritten hpost => exact absurd rfl (hnobody _ _ rfl hpost)
  | @taken _ stream' _ _ hreads _ =>
    cases label with
    | receive id stream =>
      simp only [reads?] at hreads
      split at hreads
      · next hpost =>
        cases hreads
        exact absurd rfl (hnobody _ _ rfl hpost)
      · next hpost =>
        cases hreads
        exact absurd rfl (hnobody _ _ rfl hpost)
      · cases hreads
    | discard stream =>
      simp only [reads?] at hreads
      split at hreads
      · next hwarden =>
        cases hreads
        exact absurd hwarden (h.not_draining hanswers)
      · cases hreads
    | _ => cases hreads
  | said _ => exact ⟨by simp, by simp, fun _ ↦ removes_of_not_reads rfl⟩
  | @ended stream' _ => exact ⟨by simp, by simp, fun _ ↦ removes_of_not_reads rfl⟩
  | advanced stream' _ _ hbefore _ _ => exact absurd (h.decoding stream') hbefore

/-- What is paired stays so when nothing is taken, no request begins or ends, and whoever keeps the
child busy goes on doing so. -/
private theorem Paired.aside (h : Paired (created config) replies past g u c)
    (hrun : (created config).run past = some u) (hrequests : c'.requests = c.requests)
    (hwriter : c'.writer = c.writer) (hremoves : ∀ stream, u.removes label g stream = [])
    (hengaged : ∀ id post, post.engaged? = some g →
      (v.callers.get? id = some post ↔ u.callers.get? id = some post)) :
    Paired (created config) replies (past ++ [label]) g v c' := by
  cases h with
  | idle hidle hfree hread =>
    refine .idle (fun id post hpost hbusy ↦ ?_) (hwriter.trans hfree) fun stream ↦ ?_
    · exact hidle id post ((hengaged id post hbusy).mp hpost) hbusy
    · rw [hrequests]
      exact (hread stream).concat hrun label (hremoves stream)
  | @writing id frame hpost hbusy hread =>
    refine .writing ((hengaged id _ rfl).mpr hpost) (hwriter.trans hbusy) fun stream ↦ ?_
    rw [hrequests]
    exact (hread stream).concat hrun label (hremoves stream)
  | @waiting id post lines n hpost hwaiting =>
    have hbusy := hwaiting.waits.engaged
    have hlatest : c'.requests.length = n + 1 := by
      rw [hrequests]
      exact hwaiting.latest
    exact .waiting ((hengaged id post hbusy).mpr hpost)
      ⟨hwaiting.waits, hwriter.trans hwaiting.writer, hlatest,
        hwaiting.out.concat hrun label (hremoves .out),
        hwaiting.err.concat hrun label (hremoves .err)⟩

/-! ## A step of an exchange -/

private theorem eq_of_modify {f : Child → Child} (hchild : u.children.get? g = some c)
    (hchild' : (u.children.modify g f).get? g = some c') : c' = f c := by
  rw [Table.get?_modify, if_pos rfl, hchild] at hchild'
  exact (Option.some.inj hchild').symm

/-- What a caller that keeps a child busy has to do with it. -/
theorem Paired.of_engaged (h : Paired (created config) replies past g u c)
    (hserial : Serialized (created config) labels g)
    (hsight : Sight (created config) labels g past u c) (hpost : u.callers.get? id = some post)
    (hengaged : post.engaged? = some g) :
    (c.writer = some id ∧ ∀ stream, HasRead (created config) replies past g stream
        c.requests.length []) ∧ (∃ frame, post = .writing g frame) ∨
      ∃ lines n, Waiting (created config) replies past g c post lines n := by
  cases h with
  | idle hidle _ _ => exact absurd hengaged (hidle id post hpost)
  | @writing id' frame hpost' hwriter hread =>
    obtain rfl := hserial past u id id' post _ hsight.within hsight.run hpost hpost' hengaged rfl
    rw [hpost] at hpost'
    exact .inl ⟨⟨hwriter, hread⟩, frame, Option.some.inj hpost'⟩
  | @waiting id' post' lines n hpost' hwaiting =>
    have hbusy := hwaiting.waits.engaged
    obtain rfl := hserial past u id id' post _ hsight.within hsight.run hpost hpost' hengaged hbusy
    rw [hpost] at hpost'
    obtain rfl := Option.some.inj hpost'
    exact .inr ⟨lines, n, hwaiting⟩

/-- A caller that waits for the first token has none of the reply yet. -/
theorem Paired.of_awaiting (h : Paired (created config) replies past g u c)
    (hserial : Serialized (created config) labels g)
    (hsight : Sight (created config) labels g past u c)
    (hpost : u.callers.get? id = some (.awaiting g)) :
    ∃ n, Waiting (created config) replies past g c (.awaiting g) [] n := by
  rcases h.of_engaged hserial hsight hpost rfl with ⟨_, _, heq⟩ | ⟨lines, n, hwaiting⟩
  · cases heq
  · obtain rfl : lines = [] := by cases hwaiting.waits; rfl
    exact ⟨n, hwaiting⟩

/-- A caller that collects lines has those of the reply that it says. -/
theorem Paired.of_collecting (h : Paired (created config) replies past g u c)
    (hserial : Serialized (created config) labels g)
    (hsight : Sight (created config) labels g past u c)
    (hpost : u.callers.get? id = some (.collecting g lines)) :
    ∃ n, Waiting (created config) replies past g c (.collecting g lines) lines n := by
  rcases h.of_engaged hserial hsight hpost rfl with ⟨_, _, heq⟩ | ⟨lines', n, hwaiting⟩
  · cases heq
  · obtain rfl : lines' = lines := by cases hwaiting.waits; rfl
    exact ⟨n, hwaiting⟩

private theorem engaged_iff_of_set {post' : Caller} (hpost : u.callers.get? id = some post)
    (hbefore : post.engaged? ≠ some g) (hafter : post'.engaged? ≠ some g)
    (hcallers : v.callers = u.callers.set id post') (id' : CallerId) (p : Caller)
    (hp : p.engaged? = some g) :
    v.callers.get? id' = some p ↔ u.callers.get? id' = some p := by
  rw [hcallers, Table.get?_set]
  split
  · next heq =>
    rw [← heq, hpost, Option.some.injEq, Option.some.injEq]
    constructor
    · rintro rfl
      exact absurd hp hafter
    · rintro rfl
      exact absurd hp hbefore
  · exact Iff.rfl

/-- When the only caller that keeps the child busy is done, nobody does. -/
private theorem idle_of_done (hserial : Serialized (created config) labels g)
    (hsight : Sight (created config) labels g past u c) (hpost : u.callers.get? id = some post)
    (hengaged : post.engaged? = some g) {outcome : Outcome}
    (hcallers : v.callers = u.callers.set id (.done outcome)) :
    ∀ id' post', v.callers.get? id' = some post' → post'.engaged? ≠ some g := by
  intro id' post' hpost' hbusy
  rw [hcallers, Table.get?_set] at hpost'
  split at hpost'
  · obtain rfl := Option.some.inj hpost'
    cases hbusy
  · next hne =>
    exact hne (hserial past u id id' post post' hsight.within hsight.run hpost hpost' hengaged
      hbusy)

/-- While a caller waits, the child has replied to requests up to the latest one. -/
theorem Sight.written_of_waiting (h : Sight (created config) labels g past u c)
    (hanswers : Answers (created config) labels g replies)
    (hwaiting : Waiting (created config) replies past g c post lines n) (stream : Stream) :
    written past g stream <+: wire (firstFrames replies (n + 1) stream) := by
  have hbegun : c.begun = n + 1 := by simp [Child.begun, hwaiting.writer, hwaiting.latest]
  have hwritten := hanswers.solicited past u c stream h.within h.run h.child
  rwa [hbegun] at hwritten

private theorem reads_of_waits (hpost : u.callers.get? id = some post) (hwaits : Waits g post lines)
    (stream : Stream) : u.reads? (.receive id stream) = some (g, stream) := by
  cases hwaits <;> simp only [reads?, hpost]

/-- A caller that has locked the child's input begins a request, and nobody else keeps the child
busy. -/
private theorem Paired.entered {frame : Bytes} (h : Paired (created config) replies past g u c)
    (hsight : Sight (created config) labels g past u c)
    (hsight' : Sight (created config) labels g (past ++ [.proceed id]) v c')
    (hserial : Serialized (created config) labels g)
    (hpost : u.callers.get? id = some (.entering g frame)) (hfree : c.writer = none)
    (hcallers : v.callers = u.callers.set id (.writing g frame))
    (hchildren : v.children = u.children.modify g ({ · with writer := some id })) :
    Paired (created config) replies (past ++ [.proceed id]) g v c' := by
  have hc' := eq_of_modify hsight.child (hchildren ▸ hsight'.child)
  subst hc'
  have hpost' : v.callers.get? id = some (.writing g frame) := by
    rw [hcallers, Table.get?_set_self]
  cases h with
  | idle _ _ hread =>
    exact .writing hpost' rfl fun stream ↦ (hread stream).concat hsight.run _ (removes_of_not_reads rfl)
  | writing _ hbusy _ =>
    rw [hfree] at hbusy
    cases hbusy
  | @waiting id' post' lines n hpost'' hwaiting =>
    have hbusy := hwaiting.waits.engaged
    have hne : id ≠ id' := by
      rintro rfl
      rw [hpost] at hpost''
      obtain rfl := Option.some.inj hpost''
      cases hbusy
    have hstays : v.callers.get? id' = some post' := by
      rw [hcallers, Table.get?_set_of_ne _ _ hne, hpost'']
    exact absurd (hserial _ v id id' _ post' hsight'.within hsight'.run hpost' hstays rfl hbusy) hne

/-- A request that was written is the latest one, and its caller waits for the reply. -/
private theorem Paired.written {frame : Bytes} (h : Paired (created config) replies past g u c)
    (hsight : Sight (created config) labels g past u c)
    (hsight' : Sight (created config) labels g (past ++ [.written id]) v c')
    (hserial : Serialized (created config) labels g)
    (hpost : u.callers.get? id = some (.writing g frame))
    (hcallers : v.callers = u.callers.set id (.awaiting g))
    (hchildren : v.children = u.children.modify g fun c ↦
      { c with writer := none, requests := frame :: c.requests }) :
    Paired (created config) replies (past ++ [.written id]) g v c' := by
  have hc' := eq_of_modify hsight.child (hchildren ▸ hsight'.child)
  subst hc'
  have hpost' : v.callers.get? id = some (.awaiting g) := by
    rw [hcallers, Table.get?_set_self]
  rcases h.of_engaged hserial hsight hpost rfl with ⟨⟨_, hread⟩, _⟩ | ⟨lines, n, hwaiting⟩
  · exact .waiting hpost' ⟨.awaiting, rfl, rfl, (hread .out).concat hsight.run _ (removes_of_not_reads rfl),
      (hread .err).concat hsight.run _ (removes_of_not_reads rfl)⟩
  · cases hwaiting.waits

/-- A request that could not be written leaves nothing behind. -/
private theorem Paired.unwritten {frame : Bytes} {cause : IoFault} {outcome : Outcome}
    (h : Paired (created config) replies past g u c)
    (hsight : Sight (created config) labels g past u c)
    (hsight' : Sight (created config) labels g (past ++ [.unwritten id cause]) v c')
    (hserial : Serialized (created config) labels g)
    (hpost : u.callers.get? id = some (.writing g frame))
    (hcallers : v.callers = u.callers.set id (.done outcome))
    (hchildren : v.children = u.children.modify g ({ · with writer := none })) :
    Paired (created config) replies (past ++ [.unwritten id cause]) g v c' := by
  have hc' := eq_of_modify hsight.child (hchildren ▸ hsight'.child)
  subst hc'
  rcases h.of_engaged hserial hsight hpost rfl with ⟨⟨_, hread⟩, _⟩ | ⟨lines, n, hwaiting⟩
  · exact .idle (idle_of_done hserial hsight hpost rfl hcallers) rfl fun stream ↦
      (hread stream).concat hsight.run _ (removes_of_not_reads rfl)
  · cases hwaiting.waits

/-- The token of an answer is the reply to the latest request, and nothing is left of it. -/
theorem Waiting.answered {token : Bytes} {rest : List Bytes}
    (h : Waiting (created config) replies past g c (.awaiting g) lines n)
    (hsight : Sight (created config) labels g past u c)
    (hsight' : Sight (created config) labels g (past ++ [.receive id .out]) v c')
    (hanswers : Answers (created config) labels g replies)
    (hserial : Serialized (created config) labels g)
    (hpost : u.callers.get? id = some (.awaiting g)) (hqueue : c.out.queue = token :: rest)
    (hcallers : v.callers = u.callers.set id (.done (.answer token)))
    (hchildren : v.children = u.children.modify g (·.setOutlet .out { c.out with queue := rest })) :
    Paired (created config) replies (past ++ [.receive id .out]) g v c' ∧
      (replies n).outcome = .answer token := by
  obtain rfl : lines = [] := by cases h.waits; rfl
  have hc' := eq_of_modify hsight.child (hchildren ▸ hsight'.child)
  subst hc'
  have hremoves := removes_of_reads (reads_of_waits hpost h.waits .out) hsight.child hqueue
  have hwritten := hsight.written_of_waiting hanswers h .out
  have hprefix := hsight.prefix_reply hanswers h.out hwritten
  have hwhole := (hsight.whole_reply hanswers h.out hwritten).mp
  simp only [Child.outlet, hqueue, List.nil_append] at hprefix hwhole
  obtain ⟨houtcome, rfl, htokens, herr⟩ := Reply.outcome_of_out hprefix
  refine ⟨.idle (idle_of_done hserial hsight hpost rfl hcallers) h.writer fun stream ↦ ?_, houtcome⟩
  have hlatest : (c.setOutlet .out { c.out with queue := [] }).requests.length = n + 1 := h.latest
  rw [hlatest]
  cases stream with
  | out =>
    refine (h.out.take hsight.run _ (hremoves .out)).succ htokens.symm ?_
    rw [written_concat]
    exact (hwhole htokens.symm).trans (List.prefix_append _ _)
  | err => exact (h.err.succ_of_nil herr).concat hsight.run _ (hremoves .err)

/-- A line that is taken is the next one of the reply to the latest request. -/
private theorem Waiting.complained {token : Bytes} {rest : List Bytes}
    (h : Waiting (created config) replies past g c post lines n)
    (hsight : Sight (created config) labels g past u c)
    (hsight' : Sight (created config) labels g (past ++ [.receive id .err]) v c')
    (hpost : u.callers.get? id = some post) (hqueue : c.err.queue = token :: rest)
    (hcallers : v.callers = u.callers.set id (.collecting g (token :: lines)))
    (hchildren : v.children = u.children.modify g (·.setOutlet .err { c.err with queue := rest })) :
    Paired (created config) replies (past ++ [.receive id .err]) g v c' := by
  have hc' := eq_of_modify hsight.child (hchildren ▸ hsight'.child)
  subst hc'
  have hpost' : v.callers.get? id = some (.collecting g (token :: lines)) := by
    rw [hcallers, Table.get?_set_self]
  have hremoves := removes_of_reads (reads_of_waits hpost h.waits .err) hsight.child hqueue
  refine .waiting hpost' ⟨.collecting (List.cons_ne_nil _ _), h.writer, h.latest,
    h.out.concat hsight.run _ (hremoves .out), ?_⟩
  rw [List.reverse_cons]
  exact h.err.take hsight.run _ (hremoves .err)

/-- When a caller has waited long enough, its lines are those of the reply to the latest request, and
nothing is left of it. -/
theorem Waiting.concluded
    (h : Waiting (created config) replies past g c (.collecting g lines) lines n)
    (hsight : Sight (created config) labels g past u c)
    (hsight' : Sight (created config) labels g (past ++ [.windowOver id]) v c')
    (hanswers : Answers (created config) labels g replies)
    (hserial : Serialized (created config) labels g)
    (hpost : u.callers.get? id = some (.collecting g lines)) (hqueue : c.err.queue = [])
    (hcallers : v.callers = u.callers.set id (.done (.failed (.subprocess (errorText lines)))))
    (hchildren : v.children = u.children) :
    Paired (created config) replies (past ++ [.windowOver id]) g v c' ∧
      (replies n).outcome = .failed (.subprocess (errorText lines)) := by
  have hc' : c' = c := Option.some.inj ((hchildren ▸ hsight'.child).symm.trans hsight.child)
  subst hc'
  have hwritten := hsight.written_of_waiting hanswers h .err
  have hwhole : wire (firstFrames replies (n + 1) .err) <+: written past g .err := by
    rw [← h.latest]
    exact hanswers.inTime past id u c' lines hsight'.within hsight.run hpost hsight.child
  have hall := (hsight.whole_reply hanswers h.err hwritten).mpr hwhole
  simp only [Child.outlet, hqueue, List.append_nil] at hall
  have hlines : lines ≠ [] := by
    cases h.waits with
    | collecting hlines => exact hlines
  obtain ⟨houtcome, hout⟩ := Reply.outcome_of_err hall hlines
  refine ⟨.idle (idle_of_done hserial hsight hpost rfl hcallers) h.writer fun stream ↦ ?_, houtcome⟩
  rw [h.latest]
  cases stream with
  | out => exact (h.out.succ_of_nil hout).concat hsight.run _ (removes_of_not_reads rfl)
  | err => exact (h.err.succ hall hwhole).concat hsight.run _ (removes_of_not_reads rfl)

/-- A step of an exchange with a child keeps what is paired. -/
private theorem Paired.leg (h : Paired (created config) replies past g u c)
    (hsight : Sight (created config) labels g past u c)
    (hsight' : Sight (created config) labels g (past ++ [label]) v c')
    (hanswers : Answers (created config) labels g replies)
    (hserial : Serialized (created config) labels g) (hpost : u.callers.get? id = some post)
    (hleg : Leg u id g c post label v) :
    Paired (created config) replies (past ++ [label]) g v c' := by
  cases hleg with
  | entered hfree _ => exact h.entered hsight hsight' hserial hpost hfree rfl rfl
  | shut =>
    have hc' : c' = c := Option.some.inj (hsight'.child.symm.trans hsight.child)
    subst hc'
    exact h.aside hsight.run rfl rfl (fun _ ↦ removes_of_not_reads rfl)
      (engaged_iff_of_set hpost (fun hbusy ↦ by cases hbusy) (fun hbusy ↦ by cases hbusy) rfl)
  | written => exact h.written hsight hsight' hserial hpost rfl rfl
  | unwritten => exact h.unwritten hsight hsight' hserial hpost rfl rfl
  | answered hqueue =>
    obtain ⟨n, hwaiting⟩ := h.of_awaiting hserial hsight hpost
    exact (hwaiting.answered hsight hsight' hanswers hserial hpost hqueue rfl rfl).1
  | complained hqueue =>
    obtain ⟨n, hwaiting⟩ := h.of_awaiting hserial hsight hpost
    exact hwaiting.complained hsight hsight' hpost hqueue rfl rfl
  | @parted stream _ hdisconnected =>
    cases (hsight.isDisconnected_eq_false stream).symm.trans hdisconnected
  | collected hqueue =>
    obtain ⟨n, hwaiting⟩ := h.of_collecting hserial hsight hpost
    exact hwaiting.complained hsight hsight' hpost hqueue rfl rfl
  | concluded hlabel hqueue =>
    obtain rfl | ⟨rfl, hdisconnected⟩ := hlabel
    · obtain ⟨n, hwaiting⟩ := h.of_collecting hserial hsight hpost
      exact (hwaiting.concluded hsight hsight' hanswers hserial hpost hqueue rfl rfl).1
    · cases (hsight.isDisconnected_eq_false .err).symm.trans hdisconnected

/-! ## Runs -/

/-- A caller has seen its partner, so it is there. -/
theorem Reachable.child_of_partner (hs : u.Reachable) (hpost : u.callers.get? id = some post)
    (hpartner : post.partner? = some g) : ∃ c, u.children.get? g = some c := by
  obtain ⟨config, launch, equip, wardenFault, s₀, hcreate, hreach⟩ := hs
  induction hreach generalizing id post g with
  | refl =>
    rw [create_eq_ok hcreate] at hpost
    cases hpost
  | @step t v label hprefix hstep ih =>
    have ht : t.Reachable := ⟨config, launch, equip, wardenFault, _, hcreate, hprefix⟩
    have hkept : ∀ {g c}, t.children.get? g = some c → ∃ c', v.children.get? g = some c' := by
      intro g c hchild
      obtain ⟨c', hchild', -⟩ := touch_of_step hstep (ht.le_of_child hchild) hchild
      exact ⟨c', hchild'⟩
    have hchildren : ∀ before g', t.callers.get? id = some before → before.partner? = some g' →
        ∃ c, t.children.get? g' = some c := fun _ _ ↦ ih
    rcases partner_of_step hstep hchildren hpost hpartner with
      ⟨before, hpost', hpartner'⟩ | ⟨frame, -, hhandle, -⟩
    · obtain ⟨c, hchild⟩ := ih hpost' hpartner'
      exact hkept hchild
    · obtain ⟨c, hchild⟩ := ht.child_of_handle hhandle
      exact hkept hchild

/-- Unless a step is one of an exchange with a child, whoever keeps the child busy goes on doing so,
and nobody begins to. -/
theorem engaged_iff_of_step (hu : u.Reachable) (hstep : u.step label = some v)
    (hnobody : ∀ id post, label.caller? = some id → u.callers.get? id = some post →
      post.partner? ≠ some g) (id : CallerId) (post : Caller) (hengaged : post.engaged? = some g) :
    v.callers.get? id = some post ↔ u.callers.get? id = some post := by
  have hpartner := partner_of_engaged hengaged
  by_cases hown : label.caller? = some id
  · refine ⟨fun hpost ↦ ?_, fun hpost ↦ absurd hpartner (hnobody id post hown hpost)⟩
    rcases partner_of_step hstep (fun _ _ ↦ hu.child_of_partner) hpost hpartner with
      ⟨before, hpost', hpartner'⟩ | ⟨frame, -, -, rfl⟩
    · exact absurd hpartner' (hnobody id before hown hpost')
    · cases hengaged
  · rw [get?_callers_of_step hstep hown]

/-- A step keeps what is paired. -/
theorem Paired.step (h : Paired (created config) replies past g u c)
    (hsight : Sight (created config) labels g past u c)
    (hanswers : Answers (created config) labels g replies)
    (hserial : Serialized (created config) labels g) (hwithin : past ++ [label] <+: labels)
    (hstep : u.step label = some v) :
    ∃ c', Sight (created config) labels g (past ++ [label]) v c' ∧
      Paired (created config) replies (past ++ [label]) g v c' := by
  have hu := (reachable_created config).run hsight.run
  obtain ⟨c', hchild', htouch⟩ := touch_of_step hstep (hu.le_of_child hsight.child) hsight.child
  have hsight' := hsight.touch hanswers hwithin hstep htouch hchild'
  refine ⟨c', hsight', ?_⟩
  rcases leg_or_nobody_of_step hstep hsight.child with ⟨id, post, -, hpost, hleg⟩ | hnobody
  · exact h.leg hsight hsight' hanswers hserial hpost hleg
  · obtain ⟨hrequests, hwriter, hremoves⟩ := hsight.calm hanswers hnobody htouch
    exact h.aside hsight.run hrequests hwriter hremoves (engaged_iff_of_step hu hstep hnobody)

private theorem paired_of_fresh {isReplacement : Bool}
    (hidle : ∀ id post, u.callers.get? id = some post → post.engaged? ≠ some g)
    (htaken : ∀ stream, (created config).taken past g stream = []) :
    Paired (created config) replies past g u (.fresh config isReplacement) :=
  .idle hidle rfl fun stream ↦ ⟨List.nil_prefix, htaken stream⟩

private theorem sight_of_fresh {isReplacement : Bool} (hwithin : past <+: labels)
    (hrun : (created config).run past = some u)
    (hchild : u.children.get? g = some (.fresh config isReplacement)) :
    Sight (created config) labels g past u (.fresh config isReplacement) :=
  ⟨hwithin, hrun, hchild, fun stream ↦ by cases stream <;> rfl⟩

/-- A child that has just been launched is not known to anybody. -/
private theorem paired_of_launch (hrun : (created config).run past = some u)
    (hstep : u.step label = some v) (habsent : u.children.get? g = none)
    (hwithin : past ++ [label] <+: labels) (hchild : v.children.get? g = some c) :
    Sight (created config) labels g (past ++ [label]) v c ∧
      Paired (created config) replies (past ++ [label]) g v c := by
  have hu := (reachable_created config).run hrun
  have hrun' : (created config).run (past ++ [label]) = some v :=
    run_concat_eq_some.mpr ⟨u, hrun, hstep⟩
  rcases launched_of_step hstep habsent with hnone | ⟨holder, hlabel, hfresh⟩
  · rw [hchild] at hnone
    cases hnone
  · rw [hchild] at hfresh
    obtain rfl := Option.some.inj hfresh
    have hconfig : u.config = config := config_of_run hrun
    rw [hconfig] at hchild ⊢
    refine ⟨sight_of_fresh hwithin hrun' hchild, paired_of_fresh (fun id post hpost hbusy ↦ ?_)
      fun stream ↦ ?_⟩
    · have hpartner := partner_of_engaged hbusy
      rcases partner_of_step hstep (fun _ _ ↦ hu.child_of_partner) hpost hpartner with
        ⟨before, hpost', hpartner'⟩ | ⟨frame, -, -, rfl⟩
      · obtain ⟨c, hthere⟩ := hu.child_of_partner hpost' hpartner'
        rw [habsent] at hthere
        cases hthere
      · cases hbusy
    · rw [(history_concat_of_hushed hrun (hushed_of_absent hstep habsent) stream).2.2]
      exact ((recorded_of_run hrun g).absent habsent stream).2.2

/-- In every run in which a child replies in order to exchanges that do not overlap, what was read of
it is paired with its requests. -/
theorem paired_of_run (hanswers : Answers (created config) labels g replies)
    (hserial : Serialized (created config) labels g) (hwithin : past <+: labels)
    (hrun : (created config).run past = some u) (hchild : u.children.get? g = some c) :
    Sight (created config) labels g past u c ∧ Paired (created config) replies past g u c := by
  refine run_induction (P := fun past u ↦ past <+: labels → ∀ c, u.children.get? g = some c →
    Sight (created config) labels g past u c ∧ Paired (created config) replies past g u c)
    (fun hwithin c hchild ↦ ?_) (fun past label t v hrun ih hstep hwithin c hchild ↦ ?_) hrun
    hwithin c hchild
  · have hfresh : c = .fresh config false := by
      simp only [created, Table.get?_set, Table.get?_empty] at hchild
      split at hchild
      · exact (Option.some.inj hchild).symm
      · cases hchild
    subst hfresh
    exact ⟨sight_of_fresh hwithin rfl hchild, paired_of_fresh (by rintro _ _ ⟨⟩) fun _ ↦ rfl⟩
  · have hbefore : past <+: labels := (List.prefix_append _ _).trans hwithin
    cases hthere : t.children.get? g with
    | none => exact paired_of_launch hrun hstep hthere hwithin hchild
    | some c₀ =>
      obtain ⟨hsight, hpaired⟩ := ih hbefore c₀ hthere
      obtain ⟨c', hsight', hpaired'⟩ := hpaired.step hsight hanswers hserial hwithin hstep
      obtain rfl := Option.some.inj (hsight'.child.symm.trans hchild)
      exact ⟨hsight', hpaired'⟩

/-- Nothing waits in the queues of a child that nobody keeps busy. -/
theorem Paired.queues_eq_nil (h : Paired (created config) replies past g u c)
    (hsight : Sight (created config) labels g past u c)
    (hanswers : Answers (created config) labels g replies)
    (hidle : ∀ id post, u.callers.get? id = some post → post.engaged? ≠ some g)
    (stream : Stream) : (c.outlet stream).queue = [] := by
  cases h with
  | idle _ hwriter hread =>
    have hbegun : c.begun = c.requests.length := by simp [Child.begun, hwriter]
    have hwritten := hanswers.solicited past u c stream hsight.within hsight.run hsight.child
    rw [hbegun] at hwritten
    exact hsight.queue_eq_nil hanswers (hread stream) hwritten
  | writing hpost _ _ => exact absurd rfl (hidle _ _ hpost)
  | waiting hpost hwaiting =>
    have hbusy := hidle _ _ hpost
    cases hwaiting.waits <;> exact absurd rfl hbusy

end

end Sidecar.Supervisor
