import Sidecar.Proofs.Supervisor.Pairing

/-!
# Replies find their requests

A caller that has written its request waits for the reply or has returned it (`Serves`), and once the
child has written the whole reply the caller can end by itself. Between exchanges nothing is left in
the queues. So each exchange returns the reply to its own request (`exchanges_paired`).
-/

namespace Sidecar.Supervisor

open Sidecar.Frame

/-- Where a caller stands that has written the request with a number: it waits for the reply, or it
has returned it. -/
inductive Serves (replies : Nat → Reply) (g : Generation) (k : Nat) (c : Child) : Caller → Prop where
  | waits {post : Caller} {lines : List Bytes} (hwaits : Waits g post lines)
      (hlatest : c.requests.length = k + 1) : Serves replies g k c post
  | done : Serves replies g k c (.done (replies k).outcome)

section

variable {config : Config} {labels past : List Label} {label : Label} {g : Generation}
  {replies : Nat → Reply} {u v : Supervisor} {c c' : Child} {stream : Stream} {n : Nat}
  {id : CallerId} {post : Caller} {got lines : List Bytes} {reply : Reply}

/-! ## The reply to a request -/

/-- A line that is there can be taken. -/
private theorem exists_line {token : Bytes} {rest : List Bytes}
    (hpost : u.callers.get? id = some post)
    (hwaits : post = .awaiting g ∧ lines = [] ∨ post = .collecting g lines)
    (hchild : u.children.get? g = some c) (hqueue : c.err.queue = token :: rest) :
    ∃ v, u.step (.receive id .err) = some v ∧
      v.callers.get? id = some (.collecting g (token :: lines)) ∧
      v.children.get? g = some (c.setOutlet .err { c.err with queue := rest }) := by
  refine ⟨(u.modifyChild g (·.setOutlet .err { c.err with queue := rest })).place id
    (.collecting g (token :: lines)), ?_, Table.get?_set_self .., ?_⟩
  · obtain ⟨rfl, rfl⟩ | rfl := hwaits <;>
      simp only [step, hpost, Option.bind_some, receiveToken, hchild, Child.outlet, Outlet.take?,
        hqueue]
  · simp only [place, modifyChild, Table.get?_modify, hchild]
    rfl

/-- A caller that collects lines takes all that are there, and is done when it has waited long
enough. -/
private theorem exists_conclusion (hpost : u.callers.get? id = some (.collecting g lines))
    (hchild : u.children.get? g = some c) :
    ∃ more v, (∀ label ∈ more, label.caller? = some id) ∧ u.run more = some v ∧
      v.callers.get? id =
        some (.done (.failed (.subprocess (errorText (c.err.queue.reverse ++ lines))))) := by
  generalize hqueue : c.err.queue = queue
  induction queue generalizing u c lines with
  | nil =>
    refine ⟨[.windowOver id], u.finish id (.failed (.subprocess (errorText lines))), ?_, ?_,
      Table.get?_set_self u.callers _ _⟩
    · simp [Label.caller?]
    · simp only [run_cons, step, hpost, hchild, hqueue, if_true]
      rfl
  | cons token queue ih =>
    obtain ⟨w, hstep, hpost', hchild'⟩ := exists_line hpost (.inr rfl) hchild hqueue
    obtain ⟨more, v, hown, hrun, hdone⟩ := ih hpost' hchild' rfl
    refine ⟨.receive id .err :: more, v, ?_, ?_, ?_⟩
    · simpa [Label.caller?] using hown
    · rw [run_cons, hstep]
      exact hrun
    · rw [hdone, List.reverse_cons, List.append_assoc]
      rfl

/-- A caller that waits for an answer has taken no line. -/
theorem Waiting.awaiting_of_answer {frame : Frame}
    (h : Waiting (created config) replies past g c post lines n)
    (hsight : Sight (created config) labels g past u c)
    (hanswers : Answers (created config) labels g replies) (hreply : replies n = .answer frame) :
    post = .awaiting g := by
  have hprefix := hsight.prefix_reply hanswers h.err (hsight.written_of_waiting hanswers h .err)
  rw [hreply] at hprefix
  have hlines : lines = [] := by
    simpa using (List.append_eq_nil_iff.mp (List.prefix_nil.mp hprefix)).1
  cases h.waits with
  | awaiting => rfl
  | collecting hsome => exact absurd hlines hsome

/-- Once an answer has been written as a whole, it is there. -/
theorem Waiting.queue_of_answer {frame : Frame}
    (h : Waiting (created config) replies past g c post lines n)
    (hsight : Sight (created config) labels g past u c)
    (hanswers : Answers (created config) labels g replies) (hreply : replies n = .answer frame)
    (hwhole : wire (firstFrames replies (n + 1) .out) <+: written past g .out) :
    c.out.queue = [frame.token] := by
  have hout := (hsight.whole_reply hanswers h.out (hsight.written_of_waiting hanswers h .out)).mpr
    hwhole
  rwa [hreply, List.nil_append] at hout

/-- A caller that waits for a reply that the child has written can end its exchange by itself, and
returns the reply. -/
private theorem Waiting.finishes (h : Waiting (created config) replies past g c post lines n)
    (hsight : Sight (created config) labels g past u c)
    (hanswers : Answers (created config) labels g replies) (hpost : u.callers.get? id = some post)
    (hwhole : ∀ stream, wire (firstFrames replies (n + 1) stream) <+: written past g stream) :
    ∃ more v, (∀ label ∈ more, label.caller? = some id) ∧ u.run more = some v ∧
      v.callers.get? id = some (.done (replies n).outcome) := by
  cases hreply : replies n with
  | answer frame =>
    have hout := h.queue_of_answer hsight hanswers hreply (hwhole .out)
    obtain rfl := h.awaiting_of_answer hsight hanswers hreply
    refine ⟨[.receive id .out], (u.modifyChild g
      (·.setOutlet .out { c.out with queue := [] })).finish id (.answer frame.token), ?_, ?_,
      Table.get?_set_self u.callers _ _⟩
    · simp [Label.caller?]
    · simp only [run_cons, step, hpost, Option.bind_some, receiveToken, hsight.child,
        Child.outlet, Outlet.take?, hout]
      rfl
  | complaint first others =>
    have herr := (hsight.whole_reply hanswers h.err
      (hsight.written_of_waiting hanswers h .err)).mpr (hwhole .err)
    simp only [Child.outlet] at herr
    rw [hreply] at herr
    cases h.waits with
    | awaiting =>
      obtain ⟨v, hstep, hpost', hchild'⟩ := exists_line hpost (.inl ⟨rfl, rfl⟩) hsight.child herr
      obtain ⟨more, w, hown, hrun, hdone⟩ := exists_conclusion hpost' hchild'
      have hall : ((payloads others).reverse ++ [first.token]).reverse =
          payloads ((Reply.complaint first others).frames .err) := by simp [Reply.frames, payloads]
      refine ⟨.receive id .err :: more, w, by simpa [Label.caller?] using hown, ?_, ?_⟩
      · rw [run_cons, hstep]
        exact hrun
      · rw [(Reply.outcome_of_err hall (by simp)).1]
        exact hdone
    | collecting hsome =>
      obtain ⟨more, w, hown, hrun, hdone⟩ := exists_conclusion hpost hsight.child
      have hall : (c.err.queue.reverse ++ lines).reverse =
          payloads ((Reply.complaint first others).frames .err) := by
        rw [List.reverse_append, List.reverse_reverse, herr]
      refine ⟨more, w, hown, hrun, ?_⟩
      rw [(Reply.outcome_of_err hall (by simp [hsome])).1]
      exact hdone

/-- While a caller waits, no other request is written. -/
theorem Sight.requests_eq (hsight : Sight (created config) labels g past u c)
    (hsight' : Sight (created config) labels g (past ++ [label]) v c')
    (hanswers : Answers (created config) labels g replies)
    (hserial : Serialized (created config) labels g) (hstep : u.step label = some v)
    (hpost : u.callers.get? id = some post) (hwaits : Waits g post lines) :
    c'.requests = c.requests := by
  have hu := (reachable_created config).run hsight.run
  obtain ⟨c'', hchild'', htouch⟩ := touch_of_step hstep (hu.le_of_child hsight.child) hsight.child
  obtain rfl := Option.some.inj (hsight'.child.symm.trans hchild'')
  rcases leg_or_nobody_of_step hstep hsight.child with ⟨id', post', -, hpost', hleg⟩ | hnobody
  · obtain ⟨c'', hchild'', ⟨frame, rfl, -, -⟩ | ⟨-, hrequests⟩⟩ := hleg.requests hsight.child
    · have hbusy := hwaits.engaged
      obtain rfl := hserial past u id id' post _ hsight.within hsight.run hpost hpost' hbusy rfl
      rw [hpost] at hpost'
      obtain rfl := Option.some.inj hpost'
      cases hwaits
    · obtain rfl := Option.some.inj (hsight'.child.symm.trans hchild'')
      exact hrequests
  · exact (hsight.calm hanswers hnobody htouch).1

/-- A step of a caller that waits takes it on, or lets it return the reply. -/
private theorem serves_of_leg {k : Nat} (hpaired : Paired (created config) replies past g u c)
    (hsight : Sight (created config) labels g past u c)
    (hsight' : Sight (created config) labels g (past ++ [label]) v c')
    (hanswers : Answers (created config) labels g replies)
    (hserial : Serialized (created config) labels g) (hstep : u.step label = some v)
    (hpost : u.callers.get? id = some post) (hwaits : Waits g post lines)
    (hlatest : c.requests.length = k + 1) (hleg : Leg u id g c post label v) :
    ∃ post', v.callers.get? id = some post' ∧ Serves replies g k c' post' := by
  have hrequests := hsight.requests_eq hsight' hanswers hserial hstep hpost hwaits
  have hlatest' : c'.requests.length = k + 1 := by rw [hrequests, hlatest]
  have hnumber : ∀ {post lines n}, Waiting (created config) replies past g c post lines n →
      n = k := by
    intro post lines n hwaiting
    exact Nat.succ.inj (hwaiting.latest.symm.trans hlatest)
  cases hleg with
  | entered => cases hwaits
  | shut => cases hwaits
  | written => cases hwaits
  | unwritten => cases hwaits
  | answered hqueue =>
    obtain ⟨n, hwaiting⟩ := hpaired.of_awaiting hserial hsight hpost
    obtain rfl := hnumber hwaiting
    have houtcome :=
      (hwaiting.answered hsight hsight' hanswers hserial hpost hqueue rfl rfl).2
    refine ⟨_, Table.get?_set_self u.callers _ _, ?_⟩
    rw [← houtcome]
    exact .done
  | complained hqueue =>
    exact ⟨_, Table.get?_set_self u.callers _ _,
      .waits (.collecting (List.cons_ne_nil _ _)) hlatest'⟩
  | @parted stream _ hdisconnected =>
    cases (hsight.isDisconnected_eq_false stream).symm.trans hdisconnected
  | collected hqueue =>
    exact ⟨_, Table.get?_set_self u.callers _ _,
      .waits (.collecting (List.cons_ne_nil _ _)) hlatest'⟩
  | concluded hlabel hqueue =>
    obtain rfl | ⟨rfl, hdisconnected⟩ := hlabel
    · obtain ⟨n, hwaiting⟩ := hpaired.of_collecting hserial hsight hpost
      obtain rfl := hnumber hwaiting
      have houtcome :=
        (hwaiting.concluded hsight hsight' hanswers hserial hpost hqueue rfl rfl).2
      refine ⟨_, Table.get?_set_self u.callers _ _, ?_⟩
      rw [← houtcome]
      exact .done
    · cases (hsight.isDisconnected_eq_false .err).symm.trans hdisconnected

/-- A step takes a caller that has written its request on, or leaves it where it is. -/
theorem Serves.step {k : Nat} (h : Serves replies g k c post)
    (hpaired : Paired (created config) replies past g u c)
    (hsight : Sight (created config) labels g past u c)
    (hsight' : Sight (created config) labels g (past ++ [label]) v c')
    (hanswers : Answers (created config) labels g replies)
    (hserial : Serialized (created config) labels g) (hstep : u.step label = some v)
    (hpost : u.callers.get? id = some post) (hstays : label ≠ .leave id) :
    ∃ post', v.callers.get? id = some post' ∧ Serves replies g k c' post' := by
  cases h with
  | waits hwaits hlatest =>
    by_cases hown : label.caller? = some id
    · have hpartner := partner_of_engaged hwaits.engaged
      exact serves_of_leg hpaired hsight hsight' hanswers hserial hstep hpost hwaits hlatest
        (leg_of_step hstep hown hpost hpartner hsight.child)
    · have hrequests := hsight.requests_eq hsight' hanswers hserial hstep hpost hwaits
      exact ⟨post, (get?_callers_of_step hstep hown).trans hpost,
        .waits hwaits (by rw [hrequests, hlatest])⟩
  | done =>
    by_cases hown : label.caller? = some id
    · exact absurd (leave_of_done hpost hstep hown) hstays
    · exact ⟨_, (get?_callers_of_step hstep hown).trans hpost, .done⟩

/-- When its request has been written, a caller waits for the reply. -/
theorem serves_of_written {frame : Bytes} (hpost : u.callers.get? id = some (.writing g frame))
    (hchild : u.children.get? g = some c) (hstep : u.step (.written id) = some v) :
    ∃ c' post, v.children.get? g = some c' ∧ v.callers.get? id = some post ∧
      Serves replies g c.requests.length c' post := by
  cases leg_of_step hstep rfl hpost rfl hchild with
  | written =>
    refine ⟨{ c with writer := none, requests := frame :: c.requests }, _, ?_,
      Table.get?_set_self u.callers _ _, .waits .awaiting rfl⟩
    simp only [place, modifyChild, Table.get?_modify, hchild]
    rfl

/-- In every run after a caller has written its request, it waits for the reply or has returned
it. -/
private theorem serves_of_run {before after : List Label} {frame : Bytes}
    (hanswers : Answers (created config) labels g replies)
    (hserial : Serialized (created config) labels g)
    (hwithin : before ++ [.written id] ++ after <+: labels)
    (hbefore : (created config).run before = some u)
    (hpost : u.callers.get? id = some (.writing g frame)) (hchild : u.children.get? g = some c)
    (hrun : (created config).run (before ++ [.written id] ++ after) = some v)
    (hstays : Label.leave id ∉ after) :
    ∃ c' post, v.children.get? g = some c' ∧ v.callers.get? id = some post ∧
      Serves replies g c.requests.length c' post := by
  rw [run_append] at hrun
  obtain ⟨w, hwritten, hafter⟩ := Option.bind_eq_some_iff.mp hrun
  refine run_induction (P := fun after v ↦ Label.leave id ∉ after →
    before ++ [.written id] ++ after <+: labels → ∃ c' post, v.children.get? g = some c' ∧
      v.callers.get? id = some post ∧ Serves replies g c.requests.length c' post)
    (fun _ _ ↦ ?_) (fun after label t v hafter ih hstep hstays hwithin ↦ ?_) hafter hstays hwithin
  · obtain ⟨u', hu', hstep⟩ := run_concat_eq_some.mp hwritten
    obtain rfl := Option.some.inj (hbefore.symm.trans hu')
    exact serves_of_written hpost hchild hstep
  · rw [← List.append_assoc] at hwithin
    rw [List.mem_append, not_or] at hstays
    have hpast : before ++ [.written id] ++ after <+: labels :=
      (List.prefix_append _ _).trans hwithin
    obtain ⟨c', post, hchild', hpost', hserves⟩ := ih hstays.1 hpast
    have hrun : (created config).run (before ++ [.written id] ++ after) = some t := by
      rw [run_append, hwritten]
      exact hafter
    obtain ⟨hsight, hpaired⟩ := paired_of_run hanswers hserial hpast hrun hchild'
    obtain ⟨c'', hsight', -⟩ := hpaired.step hsight hanswers hserial hwithin hstep
    obtain ⟨post', hpost'', hserves'⟩ := hserves.step hpaired hsight hsight' hanswers hserial hstep
      hpost' fun hlabel ↦ hstays.2 (by rw [hlabel]; simp)
    exact ⟨c'', post', hsight'.child, hpost'', hserves'⟩

/-- Where a child replies to each request in order and writes nothing else, and exchanges with it do
not overlap, nothing is left in its queues between them. The exchange that wrote the request with
some number has returned the reply to it, or waits for it; once the child has written the whole
reply, it ends by steps of its own and returns it. -/
theorem exchanges_paired {launch : Launch} {equip : Equip} {wardenFault : Option IoFault}
    {s t : Supervisor} (hcreate : create config launch equip wardenFault = .ok s)
    (hrun : s.run labels = some t) (hanswers : Answers s labels g replies)
    (hserial : Serialized s labels g) :
    (∀ c, t.children.get? g = some c →
      (∀ id post, t.callers.get? id = some post → post.engaged? ≠ some g) →
        c.out.queue = [] ∧ c.err.queue = []) ∧
    ∀ before id after u frame c, labels = before ++ [.written id] ++ after →
      s.run before = some u → u.callers.get? id = some (.writing g frame) →
      u.children.get? g = some c → Label.leave id ∉ after →
      ∃ post, t.callers.get? id = some post ∧
        (post = .done (replies c.requests.length).outcome ∨
          (post = .awaiting g ∨ ∃ lines, post = .collecting g lines) ∧
            ((∀ stream, wire (firstFrames replies (c.requests.length + 1) stream) <+:
              written labels g stream) →
                ∃ more v, (∀ label ∈ more, label.caller? = some id) ∧ t.run more = some v ∧
                  v.callers.get? id = some (.done (replies c.requests.length).outcome))) := by
  obtain rfl := create_eq_ok hcreate
  refine ⟨fun c hchild hidle ↦ ?_, fun before id after u frame c hlabels hbefore hpost hchild
    hstays ↦ ?_⟩
  · obtain ⟨hsight, hpaired⟩ :=
      paired_of_run hanswers hserial (List.prefix_refl labels) hrun hchild
    have hempty := hpaired.queues_eq_nil hsight hanswers hidle
    exact ⟨hempty .out, hempty .err⟩
  · have hwithin : before ++ [.written id] ++ after <+: labels := by
      rw [hlabels]
    obtain ⟨c', post, hchild', hpost', hserves⟩ := serves_of_run hanswers hserial hwithin hbefore
      hpost hchild (by rw [← hlabels]; exact hrun) hstays
    refine ⟨post, hpost', ?_⟩
    cases hserves with
    | done => exact .inl rfl
    | waits hwaits hlatest =>
      obtain ⟨hsight, hpaired⟩ :=
        paired_of_run hanswers hserial (List.prefix_refl labels) hrun hchild'
      have hbusy := hwaits.engaged
      rcases hpaired.of_engaged hserial hsight hpost' hbusy with
        ⟨-, frame', rfl⟩ | ⟨lines', n, hwaiting⟩
      · cases hwaits
      · have hnumber : n = c.requests.length :=
          Nat.succ.inj (hwaiting.latest.symm.trans hlatest)
        subst hnumber
        refine .inr ⟨?_, hwaiting.finishes hsight hanswers hpost'⟩
        cases hwaits with
        | awaiting => exact .inl rfl
        | collecting => exact .inr ⟨_, rfl⟩

end

/-! ## A dialogue -/

/-- A child answers a request of one caller, and complains of a request of another one. -/
def dialogue : List Label :=
  [.call 0 (.exchange [0x61, 0x0a]), .proceed 0, .proceed 0, .written 0, .emit 1 .out [0x62, 0x0a],
    .receive 0 .out, .call 1 (.exchange [0x63, 0x0a]), .proceed 1, .proceed 1, .written 1,
    .emit 1 .err [0x78, 0x0a], .receive 1 .err, .windowOver 1]

/-- The replies in the dialogue. -/
def dialogueReplies : Nat → Reply
  | 0 => .answer ⟨[0x62, 0x0a], [0x62]⟩
  | _ => .complaint ⟨[0x78, 0x0a], [0x78]⟩ []

/-- The replies in the dialogue can be read. -/
theorem isRead_dialogue (k : Nat) (stream : Stream) :
    ∀ f ∈ (dialogueReplies k).frames stream,
      f.IsRead (({} : Config).codecOf stream) ({} : Config).limit := by
  have hanswer : IsRead .lines ({} : Config).limit ⟨[0x62, 0x0a], [0x62]⟩ := ⟨by decide, by decide⟩
  have hcomplaint : IsRead .lines ({} : Config).limit ⟨[0x78, 0x0a], [0x78]⟩ :=
    ⟨by decide, by decide⟩
  intro f hf
  cases k with
  | zero =>
    cases stream with
    | out =>
      obtain rfl := List.mem_singleton.mp hf
      exact hanswer
    | err => cases hf
  | succ k =>
    cases stream with
    | out => cases hf
    | err =>
      obtain rfl := List.mem_singleton.mp hf
      exact hcomplaint

/-- Whether a child replies in order along a run can be seen state by state. -/
theorem answers_of_holdsAlong {config : Config} {labels : List Label} {g : Generation}
    {replies : Nat → Reply}
    (hreadable : ∀ k stream, ∀ f ∈ (replies k).frames stream,
      f.IsRead (config.codecOf stream) config.limit)
    (hunended : ∀ stream, Label.endStream g stream ∉ labels)
    (hobeys : (created config).holdsAlong labels (fun past u ↦
      (u.children.get? g).all fun c ↦ c.status = .running &&
        [Stream.out, .err].all fun stream ↦ (written past g stream).isPrefixOf
          (wire (firstFrames replies c.begun stream))) = true)
    (hwindow : (created config).holdsAlong labels (fun past u ↦
      match labels[past.length]? with
      | some (.windowOver _) => (u.children.get? g).all fun c ↦
        (wire (firstFrames replies c.requests.length .err)).isPrefixOf (written past g .err)
      | _ => true) = true) : Answers (created config) labels g replies := by
  refine ⟨hreadable, fun past u c hwithin hrun hchild ↦ ?_, hunended,
    fun past u c stream hwithin hrun hchild ↦ ?_, fun past id u c lines hwithin hrun _ hchild ↦ ?_⟩
  · have hhere := of_holdsAlong hobeys hwithin hrun
    simp only [hchild, Option.all_some, Bool.and_eq_true, decide_eq_true_eq] at hhere
    exact hhere.1
  · have hhere := of_holdsAlong hobeys hwithin hrun
    simp only [hchild, Option.all_some, Bool.and_eq_true, List.all_eq_true] at hhere
    refine List.isPrefixOf_iff_prefix.mp (hhere.2 stream ?_)
    cases stream <;> simp
  · have hhere := of_holdsAlong hwindow ((List.prefix_append _ _).trans hwithin) hrun
    simp only [next_of_within hwithin, hchild, Option.all_some] at hhere
    exact List.isPrefixOf_iff_prefix.mp hhere

private theorem answers_dialogue : Answers (created {}) dialogue 1 dialogueReplies := by
  refine answers_of_holdsAlong isRead_dialogue (fun stream ↦ by cases stream <;> decide) ?_ ?_
  · decide +kernel
  · decide +kernel

private theorem serialized_dialogue : Serialized (created {}) dialogue 1 :=
  serialized_of_holdsAlong (by decide +kernel)

/-- In the dialogue both exchanges return what replies to them, and nothing is left. -/
theorem exchanges_paired_in_dialogue :
    Answers (created {}) dialogue 1 dialogueReplies ∧ Serialized (created {}) dialogue 1 ∧
      ∃ t, (created {}).run dialogue = some t ∧
        (∀ c, t.children.get? 1 = some c → c.out.queue = [] ∧ c.err.queue = []) ∧
        t.callers.get? 0 = some (.done (dialogueReplies 0).outcome) ∧
        t.callers.get? 1 = some (.done (dialogueReplies 1).outcome) := by
  have hcreate : create {} .launched .equipped none = .ok (created {}) := rfl
  have hends : ((created {}).run dialogue).map (·.callers.entries) =
      some [(0, .done (.answer [0x62])), (1, .done (.failed (.subprocess "x")))] := by
    decide +kernel
  have hsecond : ((created {}).run (dialogue.take 9)).map
      (fun u ↦ (u.callers.get? 1, (u.children.get? 1).map (·.requests.length))) =
        some (some (.writing 1 [0x63, 0x0a]), some 1) := by
    decide +kernel
  obtain ⟨t, hrun, hentries⟩ := Option.map_eq_some_iff.mp hends
  obtain ⟨u, hbefore, hview⟩ := Option.map_eq_some_iff.mp hsecond
  obtain ⟨hpost, hnumber⟩ := Prod.mk.inj hview
  obtain ⟨c, hchild, hlength⟩ := Option.map_eq_some_iff.mp hnumber
  have hdone : ∀ id post, t.callers.get? id = some post → ∃ outcome, post = .done outcome := by
    intro id post hthere
    have hentry := hentries ▸ Table.mem_entries_of_get? hthere
    simp only [List.mem_cons, Prod.mk.injEq, List.not_mem_nil, or_false] at hentry
    obtain ⟨-, rfl⟩ | ⟨-, rfl⟩ := hentry <;> exact ⟨_, rfl⟩
  obtain ⟨hempty, hreplies⟩ := exchanges_paired hcreate hrun answers_dialogue serialized_dialogue
  refine ⟨answers_dialogue, serialized_dialogue, t, hrun, fun c hchild ↦
    hempty c hchild fun id post hthere ↦ ?_, ?_, ?_⟩
  · obtain ⟨outcome, rfl⟩ := hdone id post hthere
    simp [Caller.engaged?]
  · obtain ⟨post, hthere, rfl | ⟨hwaits, -⟩⟩ := hreplies (dialogue.take 3) 0 (dialogue.drop 4) _ _ _
      rfl rfl rfl rfl (by decide)
    · exact hthere
    · obtain ⟨outcome, rfl⟩ := hdone 0 post hthere
      simp at hwaits
  · obtain ⟨post, hthere, rfl | ⟨hwaits, -⟩⟩ := hreplies (dialogue.take 9) 1 (dialogue.drop 10) u _ c
      rfl hbefore hpost hchild (by decide)
    · rw [hthere, hlength]
    · obtain ⟨outcome, rfl⟩ := hdone 1 post hthere
      simp at hwaits

end Sidecar.Supervisor
