import Mathlib.Data.List.Infix
import Sidecar.Proofs.Stream.Frames
import Sidecar.Proofs.Supervisor.History

/-!
# Replies

A child that replies to its requests in order and writes nothing else (`Answers`) writes the frames
of its replies one after the other. What was read of one of its streams is then known from how many
replies were read (`HasRead`), and what waits in the queue is the beginning of the next reply
(`Sight.prefix_reply`).
-/

namespace Sidecar.Supervisor

open Sidecar.Frame

/-- What a child writes in reply to a request. -/
inductive Reply where
  /-- A frame of its output. -/
  | answer (frame : Frame)
  /-- Some lines of its error output. -/
  | complaint (first : Frame) (others : List Frame)
  deriving DecidableEq, Repr

namespace Reply

/-- What a reply brings to a stream. -/
def frames : Reply → Stream → List Frame
  | .answer frame, .out => [frame]
  | .answer _, .err => []
  | .complaint _ _, .out => []
  | .complaint first others, .err => first :: others

/-- What an exchange comes to that gets a reply. -/
def outcome : Reply → Outcome
  | .answer frame => .answer frame.token
  | .complaint first others =>
    let text := Utf8.decodeLossy (Bytes.joinSegments (payloads (first :: others)))
    .failed (.subprocess (if text = "" then "subprocess wrote an empty line to stderr" else text))

end Reply

/-- What the replies to the first requests bring to a stream. -/
def firstFrames (replies : Nat → Reply) (n : Nat) (stream : Stream) : List Frame :=
  (List.range n).flatMap fun k ↦ (replies k).frames stream

/-- The number of requests that a child may have seen: those that were written as a whole, and one
that is being written. -/
def Child.begun (c : Child) : Nat := c.requests.length + if c.writer.isSome then 1 else 0

/-- The child that a caller keeps busy, from the time when it writes its frame. -/
def Caller.engaged? : Caller → Option Generation
  | .writing g _ => some g
  | .awaiting g => some g
  | .collecting g _ => some g
  | _ => none

/-- At no time do two exchanges keep a child busy. -/
def Serialized (s : Supervisor) (labels : List Label) (g : Generation) : Prop :=
  ∀ past u id id' post post', past <+: labels → s.run past = some u →
    u.callers.get? id = some post → u.callers.get? id' = some post' →
    post.engaged? = some g → post'.engaged? = some g → id = id'

/-- In a run a child replies to each request in order and writes nothing else. -/
structure Answers (s : Supervisor) (labels : List Label) (g : Generation)
    (replies : Nat → Reply) : Prop where
  /-- Every answer is one frame for the reader of its output, and every line of a complaint is one
  for the reader of its errors. -/
  readable : ∀ k stream, ∀ f ∈ (replies k).frames stream,
    f.IsRead (s.config.codecOf stream) s.config.limit
  /-- It stays alive. -/
  alive : ∀ past u c, past <+: labels → s.run past = some u → u.children.get? g = some c →
    c.status = .running
  /-- While it does, it keeps its streams open. -/
  unended : ∀ stream, Label.endStream g stream ∉ labels
  /-- At any time it has replied to the requests that it may have seen, or to a part of them. -/
  solicited : ∀ past u c stream, past <+: labels → s.run past = some u →
    u.children.get? g = some c → written past g stream <+: wire (firstFrames replies c.begun stream)
  /-- All lines of a complaint are there when the caller stops waiting for more. -/
  inTime : ∀ past id u c lines, past ++ [.windowOver id] <+: labels → s.run past = some u →
    u.callers.get? id = some (.collecting g lines) → u.children.get? g = some c →
    wire (firstFrames replies c.requests.length .err) <+: written past g .err

/-- What was read of a stream: the replies to the first requests as a whole, and some tokens of the
next one. -/
structure HasRead (s : Supervisor) (replies : Nat → Reply) (past : List Label) (g : Generation)
    (stream : Stream) (n : Nat) (got : List Bytes) : Prop where
  whole : wire (firstFrames replies n stream) <+: written past g stream
  taken : s.taken past g stream = payloads (firstFrames replies n stream) ++ got

/-- A child that is there after the first labels of a run, and whose streams are decoded. -/
structure Sight (s : Supervisor) (labels : List Label) (g : Generation) (past : List Label)
    (u : Supervisor) (c : Child) : Prop where
  within : past <+: labels
  run : s.run past = some u
  child : u.children.get? g = some c
  decoding : ∀ stream, (c.outlet stream).phase = .decoding

section

variable {config : Config} {labels past : List Label} {label : Label} {g : Generation}
  {replies : Nat → Reply} {u v : Supervisor} {c c' : Child} {stream : Stream} {n : Nat}
  {id : CallerId} {post : Caller} {got lines : List Bytes} {reply : Reply}

/-! ## Replies -/

/-- Whether exchanges overlap along a run can be seen state by state. -/
theorem serialized_of_holdsAlong {s : Supervisor}
    (h : s.holdsAlong labels (fun _ u ↦
      u.callers.entries.all fun e ↦ u.callers.entries.all fun e' ↦
        e.2.engaged? != some g || e'.2.engaged? != some g || e.1 = e'.1) = true) :
    Serialized s labels g := by
  intro past u id id' post post' hwithin hrun hpost hpost' hengaged hengaged'
  have hhere := of_holdsAlong h hwithin hrun
  have hsame := List.all_eq_true.mp (List.all_eq_true.mp hhere _
    (Table.mem_entries_of_get? hpost)) _ (Table.mem_entries_of_get? hpost')
  simpa [hengaged, hengaged'] using hsame

theorem firstFrames_succ (replies : Nat → Reply) (n : Nat) (stream : Stream) :
    firstFrames replies (n + 1) stream =
      firstFrames replies n stream ++ (replies n).frames stream := by
  simp [firstFrames, List.range_succ]

/-- The limit of a reader is never zero. -/
theorem limit_pos (config : Config) : 0 < config.limit :=
  Nat.lt_of_lt_of_le Nat.one_pos (Nat.le_max_right _ _)

/-- The frames of replies can be read. -/
theorem Answers.isRead (h : Answers (created config) labels g replies) (n : Nat) (stream : Stream) :
    ∀ f ∈ firstFrames replies n stream, f.IsRead (config.codecOf stream) config.limit := by
  intro f hf
  obtain ⟨k, -, hk⟩ := List.mem_flatMap.mp hf
  exact h.readable k stream f hk

/-- A token that comes first among those of a reply to the output is its answer. -/
theorem Reply.outcome_of_out {token : Bytes} {rest : List Bytes}
    (h : token :: rest <+: payloads (reply.frames .out)) :
    reply.outcome = .answer token ∧ rest = [] ∧ payloads (reply.frames .out) = [token] ∧
      reply.frames .err = [] := by
  cases reply with
  | answer frame =>
    obtain ⟨rfl, hrest⟩ := List.cons_prefix_cons.mp h
    exact ⟨rfl, List.prefix_nil.mp hrest, rfl, rfl⟩
  | complaint first others => cases List.prefix_nil.mp h

/-- Lines that are all of a reply to the error output make its failure. -/
theorem Reply.outcome_of_err (h : lines.reverse = payloads (reply.frames .err)) (hlines : lines ≠ []) :
    reply.outcome = .failed (.subprocess (errorText lines)) ∧ reply.frames .out = [] := by
  cases reply with
  | answer frame => exact absurd (List.reverse_eq_nil_iff.mp h) hlines
  | complaint first others =>
    refine ⟨?_, rfl⟩
    simp only [outcome, errorText, h]
    rfl

/-! ## What is left in a queue -/

/-- A stream that is decoded is not disconnected. -/
theorem Sight.isDisconnected_eq_false (h : Sight (created config) labels g past u c)
    (stream : Stream) : (c.outlet stream).isDisconnected = false := by
  simp [Outlet.isDisconnected, h.decoding stream]

/-- The streams of a child that is seen have not ended. -/
theorem Sight.tokens_eq (h : Sight (created config) labels g past u c) (stream : Stream) :
    (created config).taken past g stream ++ (c.outlet stream).queue =
      (config.codecOf stream).tokens config.limit false (written past g stream) := by
  have hcut := (recorded_of_run h.run g).present c h.child stream
  have hopen := (hcut.decoding (h.decoding stream)).1
  rw [← hopen]
  exact hcut.tokens

/-- What was read of a reply and what waits in the queue are tokens of the reply, from the first. -/
theorem Sight.prefix_reply (h : Sight (created config) labels g past u c)
    (hanswers : Answers (created config) labels g replies)
    (hread : HasRead (created config) replies past g stream n got)
    (hwritten : written past g stream <+: wire (firstFrames replies (n + 1) stream)) :
    got ++ (c.outlet stream).queue <+: payloads ((replies n).frames stream) := by
  obtain ⟨whole, hwhole, -, htokens⟩ :=
    tokens_of_prefix (hanswers.isRead (n + 1) stream) hwritten (limit_pos config)
  have hall := h.tokens_eq stream
  rw [hread.taken, htokens, List.append_assoc] at hall
  have hprefix : payloads whole <+: payloads (firstFrames replies (n + 1) stream) :=
    hwhole.map Frame.token
  rw [firstFrames_succ, payloads_append, ← hall] at hprefix
  exact (List.prefix_append_right_inj _).mp hprefix

/-- Where all tokens of a reply are there, so are all its bytes. -/
theorem Sight.whole_reply (h : Sight (created config) labels g past u c)
    (hanswers : Answers (created config) labels g replies)
    (hread : HasRead (created config) replies past g stream n got)
    (hwritten : written past g stream <+: wire (firstFrames replies (n + 1) stream)) :
    got ++ (c.outlet stream).queue = payloads ((replies n).frames stream) ↔
      wire (firstFrames replies (n + 1) stream) <+: written past g stream := by
  have hframes := hanswers.isRead (n + 1) stream
  have hall := h.tokens_eq stream
  rw [hread.taken, List.append_assoc] at hall
  have hreply : payloads (firstFrames replies (n + 1) stream) =
      payloads (firstFrames replies n stream) ++ payloads ((replies n).frames stream) := by
    rw [firstFrames_succ, payloads_append]
  constructor
  · intro hgot
    rw [hgot, ← hreply] at hall
    have heq := eq_wire_of_tokens hframes hwritten (limit_pos config) hall.symm
    rw [heq]
  · intro hwhole
    have heq := hwritten.eq_of_length_le hwhole.length_le
    rw [heq, tokens_of_wire hframes (limit_pos config), hreply] at hall
    exact List.append_cancel_left hall

/-- Where the replies to all requests were read, nothing waits in the queue. -/
theorem Sight.queue_eq_nil (h : Sight (created config) labels g past u c)
    (hanswers : Answers (created config) labels g replies)
    (hread : HasRead (created config) replies past g stream n [])
    (hwritten : written past g stream <+: wire (firstFrames replies n stream)) :
    (c.outlet stream).queue = [] := by
  have hall := h.tokens_eq stream
  have heq := hwritten.eq_of_length_le hread.whole.length_le
  rw [hread.taken, heq, tokens_of_wire (hanswers.isRead n stream) (limit_pos config),
    List.append_nil] at hall
  exact List.append_right_eq_self.mp hall

/-! ## One label more -/

/-- A label under which no token is taken keeps what was read. -/
theorem HasRead.concat (h : HasRead (created config) replies past g stream n got)
    (hrun : (created config).run past = some u) (label : Label)
    (hremoves : u.removes label g stream = []) :
    HasRead (created config) replies (past ++ [label]) g stream n got := by
  refine ⟨?_, ?_⟩
  · rw [written_concat]
    exact h.whole.trans (List.prefix_append _ _)
  · rw [taken_concat hrun, hremoves, h.taken, List.append_nil]

/-- A token that is taken is read. -/
theorem HasRead.take {token : Bytes} (h : HasRead (created config) replies past g stream n got)
    (hrun : (created config).run past = some u) (label : Label)
    (hremoves : u.removes label g stream = [token]) :
    HasRead (created config) replies (past ++ [label]) g stream n (got ++ [token]) := by
  refine ⟨?_, ?_⟩
  · rw [written_concat]
    exact h.whole.trans (List.prefix_append _ _)
  · rw [taken_concat hrun, hremoves, h.taken, List.append_assoc]

/-- A reply that was read as a whole is one of those to earlier requests. -/
theorem HasRead.succ (h : HasRead (created config) replies past g stream n got)
    (hgot : got = payloads ((replies n).frames stream))
    (hwhole : wire (firstFrames replies (n + 1) stream) <+: written past g stream) :
    HasRead (created config) replies past g stream (n + 1) [] := by
  refine ⟨hwhole, ?_⟩
  rw [h.taken, hgot, firstFrames_succ, payloads_append, List.append_nil]

/-- A reply that brings nothing to a stream is read there. -/
theorem HasRead.succ_of_nil (h : HasRead (created config) replies past g stream n [])
    (hnil : (replies n).frames stream = []) :
    HasRead (created config) replies past g stream (n + 1) [] := by
  refine h.succ (by rw [hnil]; rfl) ?_
  rw [firstFrames_succ, hnil, List.append_nil]
  exact h.whole

end

end Sidecar.Supervisor
