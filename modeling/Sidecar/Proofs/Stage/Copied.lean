import Mathlib.Logic.Function.Iterate
import Sidecar.Proofs.Bytes.Segments
import Sidecar.Proofs.Codec.Copy
import Sidecar.Proofs.Stage.Selection
import Sidecar.Proofs.Supervisor.Copying
import Sidecar.Stage.Pump

/-!
# Batches that come back

Where requests and answers have one codec and every answer is a copy of its request, a batch comes
back with its parts in order and with no new failure. Sized payloads are what they were, and of lines
the carriage returns before newlines are gone, one for each visit (`copied`). A batch whose requests
fit the buffer comes to this (`process_meets`).
-/

namespace Sidecar

namespace Codec

/-- What a payload is after each of its requests has been answered by a copy. -/
def copy (codec : Codec) (data : Bytes) : Bytes :=
  match codec with
  | .lines => Bytes.joinSegments ((Bytes.segments data).map Bytes.dropCarriageReturn)
  | .lengthPrefixed => data
  | .netstring => data

/-- The payloads of the requests for a part. The empty piece after a last newline is not sent, but it
fits wherever the piece before it does. -/
def requests (codec : Codec) (data : Bytes) : List Bytes :=
  match codec with
  | .lines => Bytes.segments data
  | .lengthPrefixed => [data]
  | .netstring => [data]

/-- Lines are copied one by one, and no newline is lost. -/
theorem segments_copy (data : Bytes) :
    Bytes.segments (Codec.lines.copy data) =
      (Bytes.segments data).map Bytes.dropCarriageReturn := by
  refine Bytes.segments_joinSegments (fun piece hpiece ↦ ?_) ?_
  · obtain ⟨line, hline, rfl⟩ := List.mem_map.mp hpiece
    exact Bytes.newline_notMem_dropCarriageReturn (Bytes.newline_notMem_of_mem_segments hline)
  · simpa using Bytes.segments_ne_nil data

/-- Sized payloads are copied as they are. -/
theorem copy_of_ne {codec : Codec} (h : codec ≠ .lines) (data : Bytes) :
    codec.copy data = data := by
  cases codec with
  | lines => exact absurd rfl h
  | lengthPrefixed => rfl
  | netstring => rfl

end Codec

namespace Stage

open Dialogue (Meets)
open Supervisor (Readable)

/-- A batch after the parts at some positions have been copied, each as often as it is named. -/
def copiedAt (codec : Codec) (positions : List Nat) (batch : Batch) : Batch :=
  ⟨batch.parts.mapIdx fun position part ↦
    { part with data := codec.copy^[positions.count position] part.data }⟩

/-- A batch after its selected parts have been copied, each as often as it is selected. -/
def copied (config : Config) (batch : Batch) : Batch :=
  copiedAt config.codecSend (targets config batch) batch

/-- Whether a payload can be framed so that the frame fits the buffer. No byte string is longer than
`Pump.maxRoom`. -/
def Sendable (config : Config) (payload : Bytes) : Prop :=
  payload.length ≤ Pump.maxRoom ∧ ∃ frame, config.codecSend.encode payload = .ok frame ∧
    frame.length ≤ config.maxBuffer.toNat

instance (config : Config) (payload : Bytes) : Decidable (Sendable config payload) :=
  decidable_of_iff (payload.length ≤ Pump.maxRoom ∧
    ∃ frame ∈ (config.codecSend.encode payload).toOption,
      frame.length ≤ config.maxBuffer.toNat) <| by
    unfold Sendable
    cases config.codecSend.encode payload <;> simp [Except.toOption]

/-- Whether the requests for the selected parts of a batch can be sent. -/
def Fits (config : Config) (batch : Batch) : Prop :=
  ∀ position ∈ targets config batch, ∀ part ∈ batch.get? position,
    ∀ payload ∈ config.codecSend.requests part.data, Sendable config payload

instance (config : Config) (batch : Batch) : Decidable (Fits config batch) :=
  inferInstanceAs (Decidable (∀ position ∈ targets config batch,
    ∀ part ∈ batch.get? position, ∀ payload ∈ config.codecSend.requests part.data,
      Sendable config payload))

/-- A copy of a frame is its answer. -/
def Echoes (config : Config) (request : Request) (reply : Reply) : Prop :=
  ∃ token, Frame.IsRead config.codecRecv config.limit ⟨request.frame, token⟩ ∧ reply = .ok token

/-- A dialogue that asks only for what can be read, with a result that has a property where every
answer is a copy of its request. -/
abbrev Copying {α : Type} (config : Config) (P : α → Prop) (d : Dialogue α) : Prop :=
  Meets (fun request ↦ Readable config request.frame) (Echoes config) P d

/-- Where nothing is visited, nothing is copied. -/
theorem copiedAt_nil (codec : Codec) (batch : Batch) : copiedAt codec [] batch = batch := by
  refine congrArg Batch.mk (List.mapIdx_eq_iff.mpr fun position ↦ ?_)
  simp only [List.count_nil, Function.iterate_zero, id_eq, Option.map_id_fun']

/-- The part that is named first is copied first. -/
theorem copiedAt_cons (codec : Codec) {batch : Batch} {position : Nat} (rest : List Nat)
    {part : Part} (h : batch.get? position = some part) :
    copiedAt codec (position :: rest) batch =
      copiedAt codec rest ⟨batch.parts.set position { part with data := codec.copy part.data }⟩ := by
  have hlt : position < batch.parts.length := (List.getElem?_eq_some_iff.mp h).1
  refine congrArg Batch.mk (List.mapIdx_eq_iff.mpr fun p ↦ ?_)
  rw [List.getElem?_mapIdx]
  by_cases hsame : position = p
  · subst hsame
    rw [List.getElem?_set_self hlt, show batch.parts[position]? = some part from h,
      List.count_cons_self]
    rfl
  · rw [List.getElem?_set_ne hsame, List.count_cons_of_ne hsame]

section

variable {config : Config} {payload data : Bytes}

/-! ## Payloads -/

/-- A payload that loses a carriage return can be sent if it could before. -/
private theorem sendable_dropCarriageReturn (hlines : config.codecSend = .lines)
    (h : Sendable config payload) : Sendable config (Bytes.dropCarriageReturn payload) := by
  obtain ⟨hroom, frame, hframe, hfits⟩ := h
  have hshort := (Bytes.dropCarriageReturn_sublist payload).length_le
  refine ⟨hshort.trans hroom, Bytes.dropCarriageReturn payload ++ [Bytes.newline], ?_, ?_⟩
  · rw [hlines]
    rfl
  · rw [hlines] at hframe
    obtain rfl : payload ++ [Bytes.newline] = frame := Except.ok.inj hframe
    simp only [List.length_append] at hfits ⊢
    omega

/-- What has been copied can be sent again. -/
private theorem sendable_of_copy
    (h : ∀ payload ∈ config.codecSend.requests data, Sendable config payload) :
    ∀ payload ∈ config.codecSend.requests (config.codecSend.copy data), Sendable config payload := by
  by_cases hlines : config.codecSend = .lines
  · rw [hlines] at h ⊢
    intro payload hpayload
    rw [Codec.requests, Codec.segments_copy] at hpayload
    obtain ⟨line, hline, rfl⟩ := List.mem_map.mp hpayload
    exact sendable_dropCarriageReturn hlines (h line hline)
  · rw [Codec.copy_of_ne hlines]
    exact h

section

variable (hcodec : config.codecRecv = config.codecSend)
include hcodec

/-- A payload that can be sent comes back. -/
private theorem exchange_meets (hlines : config.codecSend = .lines → Bytes.newline ∉ payload)
    (h : Sendable config payload) (tally : Tally) :
    Copying config (·.1 = .ok (config.codecSend.returned payload))
      (exchange config.codecSend payload tally) := by
  obtain ⟨hroom, frame, hframe, hfits⟩ := h
  obtain ⟨hdelivers, rfl⟩ := Codec.delivers_of_encode hframe hlines hroom
  obtain ⟨envelope, henvelope, hwrap⟩ := Codec.envelope_of_delivers hdelivers
  have hread : Frame.IsRead config.codecRecv config.limit
      ⟨envelope.wrap payload, config.codecSend.returned payload⟩ := by
    rw [hwrap, hcodec]
    exact Codec.isRead_frame hdelivers (hfits.trans (Nat.le_max_left _ _))
  simp only [exchange, henvelope]
  refine .ask ⟨_, hread⟩ fun reply hreply ↦ ?_
  obtain ⟨token, htoken, rfl⟩ := hreply
  exact .done (congrArg Except.ok (Codec.token_unique htoken hread))

/-- Lines that can be sent come back, each without its carriage return. -/
private theorem exchangeLines_meets (hlines : config.codecSend = .lines) {lines : List Bytes}
    (hfree : ∀ line ∈ lines, Bytes.newline ∉ line) (h : ∀ line ∈ lines, Sendable config line)
    (g : Gathered) :
    Copying config
      (fun g' ↦ g'.results = (lines.map Bytes.dropCarriageReturn).reverse ++ g.results ∧
        g'.failure = g.failure)
      (exchangeLines lines g) := by
  induction lines generalizing g with
  | nil => exact .done ⟨rfl, rfl⟩
  | cons line rest ih =>
    by_cases htrailing : line = [] ∧ rest = [] ∧ g.results ≠ []
    · obtain ⟨rfl, rfl, hne⟩ := htrailing
      rw [exchangeLines_trailing hne]
      exact .done ⟨rfl, rfl⟩
    · rw [exchangeLines_cons htrailing]
      have hexchange := exchange_meets hcodec (fun _ ↦ hfree line List.mem_cons_self)
        (h line List.mem_cons_self) g.tally
      rw [hlines] at hexchange
      refine hexchange.bind ?_
      rintro ⟨reply, tally⟩ rfl
      have hrest := ih (fun l hl ↦ hfree l (List.mem_cons_of_mem _ hl))
        (fun l hl ↦ h l (List.mem_cons_of_mem _ hl))
        (g.add line (.ok (Codec.lines.returned line)) tally)
      refine hrest.imp fun g' hg' ↦ ⟨?_, hg'.2⟩
      rw [hg'.1, List.map_cons, List.reverse_cons, List.append_assoc]
      rfl

/-- A part that can be sent comes back without a failure. -/
private theorem processPart_meets
    (h : ∀ payload ∈ config.codecSend.requests data, Sendable config payload) (tally : Tally) :
    Copying config (fun x ↦ x.1 = config.codecSend.copy data ∧ x.2.1 = none)
      (processPart config.codecSend data tally) := by
  by_cases hlines : config.codecSend = .lines
  · have hsent := exchangeLines_meets hcodec hlines
      (fun _ hline ↦ Bytes.newline_notMem_of_mem_segments hline)
      (fun line hline ↦ h line (by rw [hlines]; exact hline)) ⟨[], none, tally⟩
    rw [hlines]
    refine hsent.bind ?_
    rintro g ⟨hresults, hfailure⟩
    refine .done ⟨?_, hfailure⟩
    rw [hresults, List.append_nil, List.reverse_reverse]
    rfl
  · have hdata : data ∈ config.codecSend.requests data := by
      cases hsend : config.codecSend with
      | lines => exact absurd hsend hlines
      | lengthPrefixed => exact List.mem_singleton_self data
      | netstring => exact List.mem_singleton_self data
    have hreturned : config.codecSend.returned data = config.codecSend.copy data := by
      cases hsend : config.codecSend with
      | lines => exact absurd hsend hlines
      | lengthPrefixed => rfl
      | netstring => rfl
    rw [processPart_of_ne hlines]
    refine (exchange_meets hcodec (fun hsend ↦ absurd hsend hlines) (h data hdata) tally).bind ?_
    rintro ⟨reply, t⟩ rfl
    exact .done ⟨hreturned, rfl⟩

/-! ## Batches -/

/-- A part is copied, and whether it had failed does not change. -/
private theorem treat_meets {part : Part}
    (h : ∀ payload ∈ config.codecSend.requests part.data, Sendable config payload)
    (tally : Tally) :
    Copying config (·.1 = { part with data := config.codecSend.copy part.data })
      (treat config.codecSend part tally) := by
  refine (processPart_meets hcodec h tally.countPart).bind ?_
  rintro ⟨copy, failure, t⟩ ⟨rfl, rfl⟩
  exact .done rfl

/-- Each visit to a part copies it once more. -/
private theorem visitAll_meets {positions : List Nat} {batch : Batch}
    (hlt : ∀ position ∈ positions, position < batch.size)
    (h : ∀ position ∈ positions, ∀ part ∈ batch.get? position,
      ∀ payload ∈ config.codecSend.requests part.data, Sendable config payload)
    (tally : Tally) :
    Copying config (·.1 = copiedAt config.codecSend positions batch)
      (visitAll config.codecSend positions batch tally) := by
  induction positions generalizing batch tally with
  | nil => exact .done (copiedAt_nil _ batch).symm
  | cons position rest ih =>
    have hposition : position < batch.parts.length := hlt position List.mem_cons_self
    obtain ⟨part, hpart⟩ : ∃ part, batch.get? position = some part :=
      ⟨_, List.getElem?_eq_getElem hposition⟩
    have hsent := h position List.mem_cons_self part hpart
    simp only [visitAll, visit_of_get? hpart, Dialogue.bind_eq, Dialogue.bind_assoc]
    refine (treat_meets hcodec hsent tally).bind ?_
    rintro ⟨part', t⟩ rfl
    rw [copiedAt_cons _ rest hpart]
    refine ih (fun p hp ↦ ?_) (fun p hp part' hpart' ↦ ?_) t
    · simpa [Batch.size] using hlt p (List.mem_cons_of_mem _ hp)
    · by_cases hsame : position = p
      · subst hsame
        have hset := (List.getElem?_set_self hposition).symm.trans hpart'
        obtain rfl := Option.some.inj hset
        exact sendable_of_copy hsent
      · have hset := (List.getElem?_set_ne hsame).symm.trans hpart'
        exact h p (List.mem_cons_of_mem _ hp) part' hset

/-- A batch whose requests can be sent comes back as it was, but for the carriage returns of its
lines. -/
theorem process_meets {batch : Batch} (h : Fits config batch) (tally : Tally) :
    Copying config (·.1 = copied config batch) (process config batch tally) :=
  (visitAll_meets hcodec (fun _ ↦ lt_of_mem_targets) h tally).bind fun _ hbatch ↦ .done hbatch

end

end

/-- A batch has come back: it has the parts it had, with the failures they had; sized payloads are
what they were, and each line has lost a carriage return for each visit if it had one. -/
structure ComesBack (config : Config) (batch result : Batch) : Prop where
  size : result.size = batch.size
  failures : result.parts.map (·.error) = batch.parts.map (·.error)
  unselected : ∀ position ∉ targets config batch, result.get? position = batch.get? position
  sized : config.codecSend ≠ .lines → result = batch
  lines : config.codecSend = .lines → ∀ position part, batch.get? position = some part →
    ∃ part', result.get? position = some part' ∧
      Bytes.segments part'.data = (Bytes.segments part.data).map
        Bytes.dropCarriageReturn^[(targets config batch).count position]

/-- Copying again and again copies the lines again and again. -/
private theorem segments_iterate_copy (n : Nat) (data : Bytes) :
    Bytes.segments (Codec.lines.copy^[n] data) =
      (Bytes.segments data).map Bytes.dropCarriageReturn^[n] := by
  induction n generalizing data with
  | zero => exact (List.map_id _).symm
  | succ n ih =>
    rw [Function.iterate_succ_apply, ih, Codec.segments_copy, List.map_map]
    rfl

/-- A batch whose selected parts have been copied has come back. -/
theorem comesBack_copied (config : Config) (batch : Batch) :
    ComesBack config batch (copied config batch) := by
  have hget (position : Nat) : (copied config batch).get? position =
      (batch.get? position).map fun part ↦
        { part with
          data := config.codecSend.copy^[(targets config batch).count position] part.data } :=
    List.getElem?_mapIdx
  refine ⟨List.length_mapIdx, ?_, fun position hnot ↦ ?_, fun hsized ↦ ?_,
    fun hlines position part hpart ↦ ?_⟩
  · exact List.ext_getElem? fun position ↦ by
      simp [copied, copiedAt, List.getElem?_mapIdx, Function.comp_def]
  · rw [hget, List.count_eq_zero.mpr hnot]
    exact congrFun Option.map_id _
  · have hcopy : config.codecSend.copy = id := funext (Codec.copy_of_ne hsized)
    refine congrArg Batch.mk (List.mapIdx_eq_iff.mpr fun position ↦ ?_)
    simp only [hcopy, Function.iterate_id, id_eq, Option.map_id_fun']
  · refine ⟨_, (hget position).trans (congrArg _ hpart), ?_⟩
    rw [hlines]
    exact segments_iterate_copy _ part.data

end Stage
end Sidecar
