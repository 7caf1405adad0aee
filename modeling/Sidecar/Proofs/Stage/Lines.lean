import Sidecar.Proofs.Stage.Copied
import Sidecar.Proofs.Stage.Visits

/-!
# Payloads that are sent line by line

With the codec of lines a payload is cut at its newlines and each line is a request of its own. Only
the empty piece behind a newline at the end is none. What comes of a line takes its place, and the
places are joined again (`processPart_lines`): where every request has failed, nothing has changed.
-/

namespace Sidecar

/-- The request for a line: a newline stands behind it. -/
def Request.ofLine (line : Bytes) : Request := ⟨⟨none, some [Bytes.newline]⟩, line⟩

/-- The request for a line is its frame. -/
theorem Codec.encode_lines (line : Bytes) :
    Codec.lines.encode line = .ok (Request.ofLine line).frame := rfl

namespace Stage

/-- What the payload of a request is replaced by: the answer, or itself. -/
def outcome : Request × Reply → Bytes
  | (_, .ok answer) => answer
  | (request, .error _) => request.payload

/-- Why a request has no answer, if it has none. -/
def fault? : Request × Reply → Option Failure
  | (_, .ok _) => none
  | (_, .error failure) => some failure

/-! ## Cutting and joining -/

/-- The pieces of a payload are its lines, and behind them is at most an empty one. -/
theorem segments_eq_pieces (payload : Bytes) :
    Bytes.segments payload = Codec.lines.pieces payload ++ Codec.lines.remainder payload := by
  by_cases hends : payload.getLast? = some Bytes.newline
  · rw [Codec.remainder, if_pos ⟨rfl, hends⟩]
    exact (Codec.segments_of_newline hends).1
  · rw [Codec.remainder, if_neg fun h ↦ hends h.2, List.append_nil, Codec.pieces, if_neg hends]

/-- Every payload has a line. -/
theorem pieces_ne_nil (payload : Bytes) : Codec.lines.pieces payload ≠ [] := by
  by_cases hends : payload.getLast? = some Bytes.newline
  · exact (Codec.segments_of_newline hends).2
  · rw [Codec.pieces, if_neg hends]
    exact Bytes.segments_ne_nil payload

/-- What stands behind the lines is empty. -/
theorem eq_nil_of_mem_remainder {payload piece : Bytes}
    (h : piece ∈ Codec.lines.remainder payload) : piece = [] := by
  rw [Codec.remainder] at h
  split at h
  · exact List.mem_singleton.mp h
  · cases h

/-! ## Requests and replies -/

/-- The trial of a line is one request with its reply. -/
theorem Trial.talk_lines (t : Trial .lines) : t.talk = [(.ofLine t.payload, t.reply)] := rfl

/-- What the trials of lines have said has the same results. -/
private theorem talk_of_trials (trials : List (Trial .lines)) :
    (trials.flatMap Trial.talk).map Prod.fst = (trials.map (·.payload)).map Request.ofLine ∧
      (trials.flatMap Trial.talk).map outcome = trials.map Trial.result ∧
      (trials.flatMap Trial.talk).filterMap fault? = trials.filterMap Trial.failure? := by
  induction trials with
  | nil => exact ⟨rfl, rfl, rfl⟩
  | cons t rest ih =>
    obtain ⟨hrequests, hresults, hfailures⟩ := ih
    have hresult : outcome (.ofLine t.payload, t.reply) = t.result := by
      unfold Trial.result
      cases t.reply <;> rfl
    have hfailure : fault? (.ofLine t.payload, t.reply) = t.failure? := by
      unfold Trial.failure?
      cases t.reply <;> rfl
    rw [List.flatMap_cons, Trial.talk_lines, List.singleton_append]
    refine ⟨?_, ?_, ?_⟩
    · rw [List.map_cons, hrequests]
      rfl
    · rw [List.map_cons, hresults, hresult, List.map_cons]
    · rw [List.filterMap_cons, hfailures, hfailure, List.filterMap_cons]

/-- A payload has been sent line by line: every line was asked for, in order, and what came of each
stands in its place. -/
structure SentByLine (payload : Bytes) (talk : List (Request × Reply)) (data : Bytes)
    (failure : Option Failure) : Prop where
  requests : talk.map Prod.fst = (Codec.lines.pieces payload).map Request.ofLine
  data : data = Bytes.joinSegments (talk.map outcome ++ Codec.lines.remainder payload)
  failure : failure = (talk.filterMap fault?).getLast?

/-- Processing a payload with the codec of lines sends it line by line. -/
theorem sentByLine_processPart (payload : Bytes) (tally : Tally) {σ : Type}
    (peer : Request → σ → Reply × σ) (state : σ) :
    SentByLine payload ((processPart .lines payload tally).transcript peer state)
      ((processPart .lines payload tally).run peer state).1.1
      ((processPart .lines payload tally).run peer state).1.2.1 := by
  obtain ⟨trials, last, hpieces, hleads⟩ := processPart_leads peer .lines payload tally state
  obtain ⟨hrequests, hresults, hfailures⟩ := talk_of_trials trials
  rw [hleads.transcript, hleads.run, Dialogue.transcript, List.append_nil, Dialogue.run]
  refine ⟨?_, ?_, ?_⟩
  · rw [hrequests, hpieces]
  · rw [hresults]
  · rw [hfailures]
    rfl

namespace SentByLine

variable {payload data : Bytes} {talk : List (Request × Reply)} {failure : Option Failure}

/-- All lines are asked for. -/
theorem payloads (h : SentByLine payload talk data failure) :
    talk.map (·.1.payload) = Codec.lines.pieces payload := by
  have hpayloads := congrArg (List.map Request.payload) h.requests
  rw [List.map_map, List.map_map] at hpayloads
  exact hpayloads.trans (List.map_id _)

/-- Each request is the frame of a line. -/
theorem frames (h : SentByLine payload talk data failure) :
    talk.map (fun exchange ↦ .ok exchange.1.frame) =
      (Codec.lines.pieces payload).map Codec.lines.encode := by
  have hmap := congrArg (List.map fun request ↦ (.ok request.frame : Except Codec.Fault Bytes))
    h.requests
  rw [List.map_map, List.map_map] at hmap
  exact hmap.trans (List.map_congr_left fun line _ ↦ (Codec.encode_lines line).symm)

/-- Where every request has failed, the payload is what it was. -/
theorem data_of_failed (h : SentByLine payload talk data failure)
    (hfailed : ∀ exchange ∈ talk, ∃ fault, exchange.2 = .error fault) : data = payload := by
  have hkept : talk.map outcome = Codec.lines.pieces payload := by
    calc talk.map outcome
        = talk.map (·.1.payload) := by
          apply List.map_congr_left
          rintro ⟨request, reply⟩ hmem
          obtain ⟨fault, rfl⟩ := hfailed _ hmem
          rfl
      _ = Codec.lines.pieces payload := h.payloads
  rw [h.data, hkept, ← segments_eq_pieces]
  exact Bytes.joinSegments_segments payload

end SentByLine

/-- A payload is sent line by line: the pieces between its newlines are asked for in order, each as
a frame of its own, but for an empty piece behind a newline at the end, and the empty payload and a
single newline are one empty request. The answers, or the lines where there is none, are joined by
newlines, with the piece that was left out; the last failure goes with them, if there was one. Where
every request fails, the payload is what it was. -/
theorem processPart_lines (payload : Bytes) (tally : Tally) {σ : Type}
    (peer : Request → σ → Reply × σ) (state : σ) :
    let dialogue := processPart .lines payload tally
    let talk := dialogue.transcript peer state
    let (data, failure, _) := (dialogue.run peer state).1
    ∃ lines left, Bytes.segments payload = lines ++ left ∧
      (payload.getLast? = some Bytes.newline → left = [[]]) ∧
      (payload.getLast? ≠ some Bytes.newline → left = []) ∧
      (payload = [] ∨ payload = [Bytes.newline] → lines = [[]]) ∧
      talk.map (·.1.payload) = lines ∧
      talk.map (fun exchange ↦ .ok exchange.1.frame) = lines.map Codec.lines.encode ∧
      data = Bytes.joinSegments (talk.map outcome ++ left) ∧
      failure = (talk.filterMap fault?).getLast? ∧
      ((∀ exchange ∈ talk, ∃ fault, exchange.2 = .error fault) → data = payload) := by
  have h := sentByLine_processPart payload tally peer state
  refine ⟨Codec.lines.pieces payload, Codec.lines.remainder payload, segments_eq_pieces payload,
    ?_, ?_, ?_, h.payloads, h.frames, h.data, h.failure, h.data_of_failed⟩
  · intro hends
    exact if_pos ⟨rfl, hends⟩
  · intro hends
    exact if_neg fun h ↦ hends h.2
  · rintro (rfl | rfl)
    · rfl
    · rfl

end Stage
end Sidecar
