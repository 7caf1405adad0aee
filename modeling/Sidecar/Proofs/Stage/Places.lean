import Mathlib.Data.List.TakeWhile
import Sidecar.Proofs.Stage.Lines
import Sidecar.Proofs.Supervisor.Pairing

/-!
# Lines stay in their places

No token of a stream of lines has a newline in it, whatever the bytes are, however they arrive and
wherever the stream ends. So an answer that a supervisor gets from its child is one line
(`Answering`), and a payload that a caller sends line by line (`Plays`) has as many lines when it
comes back, with what came of each line in the line's place (`lines_in_place`).
-/

namespace Sidecar

open Supervisor (Label Caller CallerId Outcome Generation Child created create Launch Equip)

/-! ## Tokens of lines -/

namespace Codec

variable {token : Bytes}

/-- A line that is split off has no newline in it, at the end of a stream or before. -/
theorem newline_notMem_of_splitLine {data : Bytes} {atEnd : Bool} {n : Nat}
    (h : splitLine data atEnd = some (n, token)) : Bytes.newline ∉ token := by
  unfold splitLine at h
  split at h
  · cases h
    apply Bytes.newline_notMem_dropCarriageReturn
    intro hmem
    simpa using List.mem_takeWhile_imp hmem
  · next hfree =>
    split at h
    · cases h
      exact Bytes.newline_notMem_dropCarriageReturn hfree
    · cases h

/-- What is left over at the end of a stream of lines has no newline in it. -/
theorem newline_notMem_of_mem_conclude {limit : Nat} {ending : Option IoFault} {rest : Bytes}
    (h : .ok token ∈ Codec.lines.conclude limit ending rest) : Bytes.newline ∉ token := by
  unfold conclude at h
  split at h
  · simp at h
  · cases ending with
    | some fault => simp at h
    | none =>
      cases hsplit : splitLine rest true with
      | none => simp [split, hsplit] at h
      | some found =>
        obtain ⟨n, token'⟩ := found
        obtain rfl : token = token' := by simpa [split, hsplit] using h
        exact newline_notMem_of_splitLine hsplit

/-- No token of a stream of lines has a newline in it. -/
theorem newline_notMem_of_mem_decode {limit : Nat} {ending : Option IoFault} {rest : Bytes}
    (h : .ok token ∈ Codec.lines.decode limit ending rest) : Bytes.newline ∉ token := by
  -- On the number of bytes that are left, of which every token takes some.
  induction hlength : rest.length using Nat.strong_induction_on generalizing rest with
  | _ length ih =>
    subst hlength
    cases hline : splitLine (rest.take limit) false with
    | none =>
      have hsplit : Codec.lines.split (rest.take limit) false = .ok none :=
        congrArg Except.ok hline
      rw [decode_of_more hsplit] at h
      exact newline_notMem_of_mem_conclude h
    | some found =>
      obtain ⟨n, first⟩ := found
      have hsplit : Codec.lines.split (rest.take limit) false = .ok (some (n, first)) :=
        congrArg Except.ok hline
      rw [decode_of_token hsplit, List.mem_cons] at h
      rcases h with heq | hmem
      · cases heq
        exact newline_notMem_of_splitLine hline
      · have hn := split_consumes hsplit
        rw [List.length_take] at hn
        refine ih _ ?_ hmem rfl
        rw [List.length_drop]
        omega

/-- The tokens so far of a stream of lines have no newline in them. -/
theorem newline_notMem_of_mem_tokens {limit : Nat} {hasEnded : Bool} {bytes : Bytes}
    (h : token ∈ Codec.lines.tokens limit hasEnded bytes) : Bytes.newline ∉ token := by
  obtain ⟨item, hitem, htoken⟩ := List.mem_filterMap.mp h
  cases item with
  | error failure => cases htoken
  | ok token' =>
    cases htoken
    exact newline_notMem_of_mem_decode hitem

end Codec

namespace Supervisor

/-- Where a call to exchange a frame stands: it has not come to anything yet, or to a failure, or to
an answer that is one line. -/
inductive Answering : Caller → Prop where
  | sending {frame : Bytes} : Answering (.sending frame)
  | partnered {post : Caller} {g : Generation} (hpartner : post.partner? = some g) : Answering post
  | failed {failure : Failure} : Answering (.done (.failed failure))
  | answered {token : Bytes} (hline : Bytes.newline ∉ token) : Answering (.done (.answer token))

section

variable {config : Config} {labels : List Label} {s t u : Supervisor} {id : CallerId}
  {post : Caller} {label : Label}

/-- The answers that wait in the output of a child are lines. -/
theorem newline_notMem_of_mem_queue (hlines : config.codecRecv = .lines)
    (hrun : (created config).run labels = some t) {g : Generation} {c : Child}
    (hchild : t.children.get? g = some c) {token : Bytes} (hmem : token ∈ c.out.queue) :
    Bytes.newline ∉ token := by
  have htokens := taken_append_queue hrun hchild .out
  have hall : token ∈ (created config).tokens labels g .out := by
    rw [← htokens]
    exact List.mem_append_right _ hmem
  have hcodec : (created config).config.codecOf .out = .lines := hlines
  rw [tokens, hcodec] at hall
  exact Codec.newline_notMem_of_mem_tokens hall

/-- A step of an exchange takes it on. -/
private theorem answering_of_leg (hlines : config.codecRecv = .lines)
    (hrun : (created config).run labels = some t) {g : Generation} {c : Child}
    (hchild : t.children.get? g = some c) (hleg : Leg t id g c post label u) :
    ∃ post', u.callers.get? id = some post' ∧ Answering post' := by
  cases hleg with
  | answered hqueue =>
    refine ⟨_, Table.get?_set_self .., .answered ?_⟩
    apply newline_notMem_of_mem_queue hlines hrun hchild
    rw [hqueue]
    exact List.mem_cons_self
  | shut => exact ⟨_, Table.get?_set_self .., .failed⟩
  | unwritten => exact ⟨_, Table.get?_set_self .., .failed⟩
  | parted => exact ⟨_, Table.get?_set_self .., .failed⟩
  | concluded => exact ⟨_, Table.get?_set_self .., .failed⟩
  | entered => exact ⟨_, Table.get?_set_self .., .partnered rfl⟩
  | written => exact ⟨_, Table.get?_set_self .., .partnered rfl⟩
  | complained => exact ⟨_, Table.get?_set_self .., .partnered rfl⟩
  | collected => exact ⟨_, Table.get?_set_self .., .partnered rfl⟩

/-- As long as a caller stays, a step takes its exchange on or leaves it where it is. -/
theorem Answering.step (h : Answering post) (hlines : config.codecRecv = .lines)
    (hrun : (created config).run labels = some t) (hpost : t.callers.get? id = some post)
    (hstep : t.step label = some u) (hstays : label ≠ .leave id) :
    ∃ post', u.callers.get? id = some post' ∧ Answering post' := by
  by_cases hown : label.caller? = some id
  · cases h with
    | sending =>
      cases own_of_step hstep hown hpost with
      | proceed =>
        simp only [step, hpost, Option.bind_some, proceedCaller] at hstep
        split at hstep
        · cases hstep
        · split at hstep
          · cases hstep
            exact ⟨_, Table.get?_set_self .., .failed⟩
          · cases hstep
            exact ⟨_, Table.get?_set_self .., .partnered rfl⟩
    | partnered hpartner =>
      have hreach := (reachable_created config).run hrun
      obtain ⟨c, hchild⟩ := hreach.child_of_partner hpost hpartner
      exact answering_of_leg hlines hrun hchild (leg_of_step hstep hown hpost hpartner hchild)
    | failed => exact absurd (leave_of_done hpost hstep hown) hstays
    | answered => exact absurd (leave_of_done hpost hstep hown) hstays
  · exact ⟨post, (get?_callers_of_step hstep hown).trans hpost, h⟩

/-- What a call to exchange a frame comes to is a failure, or an answer that is one line. -/
theorem answering_of_run {before : List Label} {frame : Bytes} (hlines : config.codecRecv = .lines)
    (hbefore : (created config).run (before ++ [.call id (.exchange frame)]) = some s)
    (hrun : s.run labels = some t) (hstays : Label.leave id ∉ labels) :
    ∃ post, t.callers.get? id = some post ∧ Answering post := by
  refine run_induction (P := fun labels t ↦ Label.leave id ∉ labels →
    ∃ post, t.callers.get? id = some post ∧ Answering post)
    (fun _ ↦ ?_) (fun labels label t u hrun ih hstep hstays ↦ ?_) hrun hstays
  · obtain ⟨r, -, hcall⟩ := run_concat_eq_some.mp hbefore
    simp only [step] at hcall
    split at hcall
    · cases hcall
      exact ⟨_, Table.get?_set_self .., .sending⟩
    · cases hcall
  · rw [List.mem_append, not_or] at hstays
    obtain ⟨post, hpost, hanswering⟩ := ih hstays.1
    have hall : (created config).run
        (before ++ [.call id (.exchange frame)] ++ labels) = some t := by
      rw [run_append, hbefore]
      exact hrun
    exact hanswering.step hlines hall hpost hstep fun hlabel ↦ hstays.2 (by rw [hlabel]; simp)

end

end Supervisor

/-! ## Dialogues with a supervisor -/

/-- A caller plays a dialogue with a supervisor. For each request it calls for an exchange and stays
until the call is done, and the outcome is the reply. Before the call and until it is done anything
may happen that is possible. -/
inductive Plays {α : Type} (id : CallerId) :
    Dialogue α → Supervisor → List (Request × Reply) → α → Supervisor → Prop where
  | done (a : α) (s : Supervisor) : Plays id (.done a) s [] a s
  | ask {request : Request} {next : Reply → Dialogue α} {s t u v : Supervisor}
      {before during : List Label} {outcome : Outcome} {talk : List (Request × Reply)} {a : α}
      (hrun : s.run (before ++ .call id (.exchange request.frame) :: during) = some t)
      (hstays : Label.leave id ∉ during) (hdone : t.callers.get? id = some (.done outcome))
      (hleave : t.step (.leave id) = some u) (hrest : Plays id (next outcome.reply) u talk a v) :
      Plays id (.ask request next) s ((request, outcome.reply) :: talk) a v

namespace Plays

variable {α : Type} {id : CallerId} {d : Dialogue α} {s t : Supervisor}
  {talk : List (Request × Reply)} {a : α}

/-- A peer that has replies laid down for it. -/
def recite (_ : Request) : List Reply → Reply × List Reply
  | [] => (.error .closed, [])
  | reply :: rest => (reply, rest)

/-- A dialogue with a supervisor is the one with a peer that recites the same replies. -/
theorem recited (h : Plays id d s talk a t) :
    d.transcript recite (talk.map Prod.snd) = talk ∧
      d.run recite (talk.map Prod.snd) = (a, []) := by
  induction h with
  | done => exact ⟨rfl, rfl⟩
  | ask _ _ _ _ _ ih => exact ⟨congrArg (_ :: ·) ih.1, ih.2⟩

/-- Where answers are read by lines, each that a supervisor gives is one line. -/
theorem answers_in_line {config : Config} (hlines : config.codecRecv = .lines) {past : List Label}
    (hpast : (created config).run past = some s) (h : Plays id d s talk a t) :
    ∀ request answer, (request, .ok answer) ∈ talk → Bytes.newline ∉ answer := by
  induction h generalizing past with
  | done => simp
  | @ask request next s t u v before during outcome talk a hrun hstays hdone hleave _ ih =>
    have hall : (created config).run
        (past ++ before ++ [.call id (.exchange request.frame)] ++ during) = some t := by
      rw [List.append_assoc, List.append_assoc, Supervisor.run_append, hpast]
      exact hrun
    have hleft : (created config).run
        (past ++ before ++ [.call id (.exchange request.frame)] ++ during ++ [.leave id]) =
          some u := by
      rw [Supervisor.run_concat, hall]
      exact hleave
    intro request' answer hmem
    rcases List.mem_cons.mp hmem with heq | hmem
    · rw [Supervisor.run_append] at hall
      obtain ⟨r, hbefore, hduring⟩ := Option.bind_eq_some_iff.mp hall
      obtain ⟨post, hpost, hanswering⟩ :=
        Supervisor.answering_of_run hlines hbefore hduring hstays
      cases hpost.symm.trans hdone
      cases hanswering with
      | failed => cases heq
      | answered hline =>
        cases heq
        exact hline
      | partnered hpartner => cases hpartner
    · exact ih hleft request' answer hmem

end Plays

/-! ## Lines in their places -/

namespace Stage.SentByLine

variable {payload data : Bytes} {talk : List (Request × Reply)} {failure : Option Failure}

/-- What comes of a line has no newline in it if no answer has. -/
theorem newline_notMem_of_mem_outcomes (h : SentByLine payload talk data failure)
    (hanswers : ∀ request answer, (request, .ok answer) ∈ talk → Bytes.newline ∉ answer)
    {piece : Bytes} (hpiece : piece ∈ talk.map outcome ++ Codec.lines.remainder payload) :
    Bytes.newline ∉ piece := by
  rcases List.mem_append.mp hpiece with hmem | hmem
  · obtain ⟨⟨request, reply⟩, hexchange, rfl⟩ := List.mem_map.mp hmem
    cases reply with
    | ok answer => exact hanswers request answer hexchange
    | error fault =>
      have hpayload : request.payload ∈ Bytes.segments payload := by
        rw [segments_eq_pieces, ← h.payloads]
        exact List.mem_append_left _ (List.mem_map_of_mem hexchange)
      exact Bytes.newline_notMem_of_mem_segments hpayload
  · rw [eq_nil_of_mem_remainder hmem]
    exact List.not_mem_nil

/-- Answers that are lines leave the lines where they are. -/
theorem segments_data (h : SentByLine payload talk data failure)
    (hanswers : ∀ request answer, (request, .ok answer) ∈ talk → Bytes.newline ∉ answer) :
    Bytes.segments data = talk.map outcome ++ Codec.lines.remainder payload := by
  rw [h.data]
  apply Bytes.segments_joinSegments
  · intro piece hpiece
    exact h.newline_notMem_of_mem_outcomes hanswers hpiece
  · intro hnil
    apply pieces_ne_nil payload
    rw [← h.payloads, List.map_eq_nil_iff.mp (List.append_eq_nil_iff.mp hnil).1]
    rfl

end Stage.SentByLine

namespace Stage

/-- A payload that a caller sends line by line to a supervisor that reads lines comes back with as
many newlines, whatever the child and everybody else does: all its lines are asked for, what comes
of each, be it an answer or the line itself, stands in its place, and a newline at the end is still
there. -/
theorem lines_in_place {config : Config} {launch : Launch} {equip : Equip}
    {wardenFault : Option IoFault} {s₀ s t : Supervisor} {labels : List Label} {id : CallerId}
    {payload data : Bytes} {tally tally' : Tally} {talk : List (Request × Reply)}
    {failure : Option Failure} (hsend : config.codecSend = .lines)
    (hrecv : config.codecRecv = .lines) (hcreate : create config launch equip wardenFault = .ok s₀)
    (hrun : s₀.run labels = some s)
    (hplays : Plays id (processPart config.codecSend payload tally) s talk
      (data, failure, tally') t) :
    data.count Bytes.newline = payload.count Bytes.newline ∧
      talk.map (·.1.payload) = Codec.lines.pieces payload ∧
      (∀ (i : Nat) request reply, talk[i]? = some (request, reply) →
        (Bytes.segments payload)[i]? = some request.payload ∧
        (Bytes.segments data)[i]? = some (outcome (request, reply))) ∧
      (payload.getLast? = some Bytes.newline → data.getLast? = some Bytes.newline) := by
  obtain rfl := Supervisor.create_eq_ok hcreate
  rw [hsend] at hplays
  obtain ⟨htalk, hresult⟩ := hplays.recited
  have hsent : SentByLine payload talk data failure := by
    have h := sentByLine_processPart payload tally Plays.recite (talk.map Prod.snd)
    rwa [htalk, hresult] at h
  have hpieces := segments_eq_pieces payload
  have hdata := hsent.segments_data (hplays.answers_in_line hrecv hrun)
  rw [← hsent.payloads] at hpieces
  refine ⟨?_, hsent.payloads, ?_, ?_⟩
  · have hlength : (Bytes.segments data).length = (Bytes.segments payload).length := by
      rw [hdata, hpieces]
      simp only [List.length_append, List.length_map]
    rw [Bytes.length_segments, Bytes.length_segments] at hlength
    omega
  · intro i request reply hget
    obtain ⟨hi, -⟩ := List.getElem?_eq_some_iff.mp hget
    rw [hpieces, hdata]
    constructor
    · rw [List.getElem?_append_left (by rwa [List.length_map]), List.getElem?_map, hget]
      rfl
    · rw [List.getElem?_append_left (by rwa [List.length_map]), List.getElem?_map, hget]
      rfl
  · intro hends
    have hremainder : Codec.lines.remainder payload = [[]] := if_pos ⟨rfl, hends⟩
    have hne : talk.map outcome ≠ [] := by
      intro hnil
      apply pieces_ne_nil payload
      rw [← hsent.payloads, List.map_eq_nil_iff.mp hnil]
      rfl
    rw [hsent.data, hremainder, Bytes.joinSegments_concat hne]
    exact List.getLast?_concat

/-- The child answers a line by one that ends in a carriage return. -/
def answeredLine : List Label :=
  [.proceed 1, .proceed 1, .written 1, .emit 1 .out [0x78, 0x0d, 0x0a], .receive 1 .out]

/-- The child writes an error instead of an answer. -/
def unansweredLine : List Label :=
  [.proceed 1, .proceed 1, .written 1, .emit 1 .err [0x65, 0x0a], .receive 1 .err, .windowOver 1]

/-- Of two lines the first is answered and the second is not, as the child complains. -/
theorem lines_in_place_of_error :
    ∃ talk tally t,
      Plays 1 (processPart .lines [0x61, 0x0a, 0x62, 0x0a] {}) (created {}) talk
        ([0x78, 0x0a, 0x62, 0x0a], some (.subprocess "e"), tally) t ∧
      talk.map Prod.snd = [.ok [0x78], .error (.subprocess "e")] ∧
      [0x78, 0x0a, 0x62, 0x0a].count Bytes.newline =
        [0x61, 0x0a, 0x62, 0x0a].count Bytes.newline := by
  have hcreate : create {} .launched .equipped none = .ok (created {}) := rfl
  have hfirst : ((created {}).run ([] ++ Label.call 1 (.exchange [0x61, 0x0a]) :: answeredLine)).bind
      (·.callers.get? 1) = some (.done (.answer [0x78])) := by
    cbv
  obtain ⟨t, ht, hanswer⟩ := Option.bind_eq_some_iff.mp hfirst
  have hsecond : ((created {}).run (([] ++ Label.call 1 (.exchange [0x61, 0x0a]) :: answeredLine) ++
      Label.leave 1 :: ([] ++ Label.call 1 (.exchange [0x62, 0x0a]) :: unansweredLine))).bind
        (·.callers.get? 1) = some (.done (.failed (.subprocess "e"))) := by
    decide +kernel
  obtain ⟨v, hv, hfailed⟩ := Option.bind_eq_some_iff.mp hsecond
  rw [Supervisor.run_append, ht, Option.bind_some, Supervisor.run_cons] at hv
  obtain ⟨u, hleave, hv⟩ := Option.bind_eq_some_iff.mp hv
  obtain ⟨w, hleave'⟩ : ∃ w, v.step (.leave 1) = some w := by
    simp only [Supervisor.step, hfailed]
    exact ⟨_, rfl⟩
  have hplays : Plays 1 (processPart .lines [0x61, 0x0a, 0x62, 0x0a] {}) (created {})
      [(.ofLine [0x61], .ok [0x78]), (.ofLine [0x62], .error (.subprocess "e"))]
      ([0x78, 0x0a, 0x62, 0x0a], some (.subprocess "e"), _) w :=
    .ask ht (by decide) hanswer hleave (.ask hv (by decide) hfailed hleave' (.done _ w))
  exact ⟨_, _, w, hplays, rfl, (lines_in_place rfl rfl hcreate (Supervisor.run_nil _) hplays).1⟩

end Stage

end Sidecar
