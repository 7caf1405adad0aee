import Mathlib.Data.List.Dedup
import Sidecar.Proofs.Stage.Treatment

/-!
# Selections

An index of a selection names a position from the start of a batch or from its end
(`position?_eq_some_iff`), and so two indices that differ may name the same part. Whether they do
depends on the size of the batch. A part that is named twice is processed twice, the second time
with the answer to the first, and is counted twice (`parts_process`): a batch is processed part by
part, each part once, exactly when the indices that name something name different positions.
-/

namespace Sidecar

/-! ## Indices -/

/-- Whether an index names a position of a batch of some size. -/
def Names (size : Nat) (index : Int64) (position : Nat) : Prop :=
  position < size ∧ (index.toInt = position ∨ index.toInt = (position : Int) - size)

/-- An index counts from the start or from the end. -/
theorem Batch.position?_eq_some_iff {batch : Batch} {index : Int64} {position : Nat} :
    batch.position? index = some position ↔ Names batch.size index position := by
  simp only [position?, Names]
  generalize index.toInt = i
  split
  · simp only [reduceCtorEq, false_iff]
    omega
  · rw [Option.ite_none_right_eq_some, Option.some.injEq]
    split <;> omega

/-- What becomes of a part with the reply to its request. -/
def Part.receive (part : Part) : Reply → Part
  | .ok data => { part with data }
  | .error failure => part.flag failure.message

namespace Stage

open Dialogue (Meets)

/-- Whether the indices of a selection name different positions of a batch. -/
def Distinct (config : Config) (batch : Batch) : Prop :=
  config.parts.Pairwise fun i j ↦ ∀ position, Names batch.size i position →
    ¬ Names batch.size j position

/-- The positions are without duplicates exactly when the indices name different ones. -/
theorem nodup_targets_iff {config : Config} {batch : Batch} :
    (targets config batch).Nodup ↔ Distinct config batch := by
  unfold targets Distinct
  split
  · rename_i hall
    simp [hall, List.nodup_range]
  · rw [List.Nodup, List.pairwise_filterMap]
    simp only [Batch.position?_eq_some_iff]
    constructor
    · exact fun h ↦ h.imp fun hij p hi hj ↦ hij p hi p hj rfl
    · refine fun h ↦ h.imp fun hij p hi q hj ↦ ?_
      rintro rfl
      exact hij p hi hj

/-- Every position that is selected is one of the batch. -/
theorem lt_of_mem_targets {config : Config} {batch : Batch} {position : Nat}
    (h : position ∈ targets config batch) : position < batch.size := by
  unfold targets at h
  split at h
  · exact List.mem_range.mp h
  · obtain ⟨index, -, hnames⟩ := List.mem_filterMap.mp h
    exact Batch.position?_lt hnames

/-! ## Counting -/

/-- A dialogue whose result has a property, whatever the replies are. -/
abbrev Always {α : Type} (P : α → Prop) (d : Dialogue α) : Prop :=
  Meets (fun _ ↦ True) (fun _ _ ↦ True) P d

/-- Sending a payload counts no part. -/
theorem exchange_parts (codec : Codec) (payload : Bytes) (tally : Tally) :
    Always (·.2.parts = tally.parts)
      (exchange codec payload tally) := by
  unfold exchange
  cases codec.envelope payload.length with
  | error fault => exact .done rfl
  | ok envelope =>
    refine .ask trivial fun reply _ ↦ ?_
    cases reply <;> exact .done rfl

/-- Sending lines counts no part. -/
theorem exchangeLines_parts (lines : List Bytes) (g : Gathered) :
    Always (·.tally.parts = g.tally.parts)
      (exchangeLines lines g) := by
  induction lines generalizing g with
  | nil => exact .done rfl
  | cons line rest ih =>
    by_cases htrailing : line = [] ∧ rest = [] ∧ g.results ≠ []
    · obtain ⟨rfl, rfl, hne⟩ := htrailing
      rw [exchangeLines_trailing hne]
      exact .done rfl
    · rw [exchangeLines_cons htrailing]
      refine (exchange_parts .lines line g.tally).bind ?_
      rintro ⟨reply, tally⟩ htally
      have hkept : (g.add line reply tally).tally.parts = g.tally.parts := by
        cases reply <;> exact htally
      exact hkept ▸ ih _

/-- Processing a payload counts no part. -/
theorem processPart_parts (codec : Codec) (data : Bytes) (tally : Tally) :
    Always (·.2.2.parts = tally.parts)
      (processPart codec data tally) := by
  by_cases hlines : codec = .lines
  · subst hlines
    exact (exchangeLines_parts _ _).bind fun g hg ↦ .done hg
  · rw [processPart_of_ne hlines]
    refine (exchange_parts codec data tally).bind ?_
    rintro ⟨reply, t⟩ ht
    cases reply <;> exact .done ht

/-- The treatment of a part counts it, once. -/
theorem treat_parts (codec : Codec) (part : Part) (tally : Tally) :
    Always (·.2.parts = tally.parts + 1)
      (treat codec part tally) := by
  refine (processPart_parts codec part.data tally.countPart).bind ?_
  rintro ⟨data, failure, t⟩ ht
  cases failure <;> exact .done ht

/-- Every visit counts a part. -/
theorem visitAll_parts (codec : Codec) (positions : List Nat) (batch : Batch) (tally : Tally) :
    Always (·.2.parts = tally.parts + UInt64.ofNat positions.length)
      (visitAll codec positions batch tally) := by
  induction positions generalizing batch tally with
  | nil => exact .done (by simp)
  | cons position rest ih =>
    have hvisit : Always (·.2.parts = tally.parts + 1)
        (visit codec position batch tally) := by
      cases hget : batch.get? position with
      | none =>
        rw [visit, hget]
        exact .done rfl
      | some part =>
        rw [visit_of_get? hget]
        exact (treat_parts codec part tally).bind fun _ h ↦ .done h
    refine hvisit.bind ?_
    rintro ⟨batch, t⟩ ht
    have hsum : tally.parts + UInt64.ofNat (position :: rest).length =
        t.parts + UInt64.ofNat rest.length := by
      rw [ht, List.length_cons, UInt64.ofNat_add, UInt64.add_comm (UInt64.ofNat _),
        UInt64.add_assoc]
      rfl
    exact hsum ▸ ih batch t

/-- Processing a batch counts a part for every index that names one. -/
theorem process_parts (config : Config) (batch : Batch) (tally : Tally) :
    Always (·.2.parts = tally.parts + UInt64.ofNat (targets config batch).length)
      (process config batch tally) :=
  (visitAll_parts _ _ batch tally).bind fun _ h ↦ .done h

/-! ## Whole parts -/

/-- The request for a payload, if it can be framed. -/
def request? (codec : Codec) (payload : Bytes) : Option Request :=
  match codec.envelope payload.length with
  | .ok envelope => some ⟨envelope, payload⟩
  | .error _ => none

section Whole

variable {codec : Codec} (hlines : codec ≠ .lines)
include hlines

/-- A part that cannot be framed is not sent. -/
theorem treat_of_request?_eq_none {part : Part} (h : request? codec part.data = none)
    (tally : Tally) :
    ∃ part' tally', treat codec part tally = .done (part', tally') := by
  simp only [request?] at h
  cases henvelope : codec.envelope part.data.length with
  | ok envelope => simp [henvelope] at h
  | error fault =>
    refine ⟨part.flag (Failure.framing fault).message, tally.countPart.countFailed, ?_⟩
    simp only [treat, processPart_of_ne hlines, exchange, henvelope]
    rfl

/-- A part that can be framed is one request, and becomes what the reply makes of it. -/
theorem treat_of_request?_eq_some {part : Part} {request : Request}
    (h : request? codec part.data = some request) (tally : Tally) :
    ∃ tally' : Reply → Tally, treat codec part tally =
      .ask request fun reply ↦ .done (part.receive reply, tally' reply) := by
  simp only [request?] at h
  cases henvelope : codec.envelope part.data.length with
  | error fault => simp [henvelope] at h
  | ok envelope =>
    obtain rfl : (⟨envelope, part.data⟩ : Request) = request := by simpa [henvelope] using h
    refine ⟨fun reply ↦ match reply with
      | .ok _ => tally.countPart.countAnswered
      | .error _ => tally.countPart.countFailed, ?_⟩
    simp only [treat, processPart_of_ne hlines, exchange, henvelope, Dialogue.bind_eq,
      Dialogue.ask_bind]
    congr 1
    funext reply
    cases reply <;> rfl

end Whole

/-- The request for the part at a position of a batch. -/
def requestAt? (codec : Codec) (batch : Batch) (position : Nat) : Option Request :=
  (batch.get? position).bind fun part ↦ request? codec part.data

/-- What a peer has heard and said when positions of a batch were processed: each part that can be
framed was one request, in order, and holds what its reply makes of it. -/
structure Delivered (codec : Codec) (positions : List Nat) (batch : Batch)
    (talk : List (Request × Reply)) (result : Batch) : Prop where
  requests : talk.map Prod.fst = positions.filterMap (requestAt? codec batch)
  received : ∀ position request reply,
    (position, request, reply) ∈
      (positions.filter fun p ↦ (requestAt? codec batch p).isSome).zip talk →
    result.get? position = (batch.get? position).map (·.receive reply)

namespace Delivered

variable {codec : Codec} {positions : List Nat} {batch : Batch} {talk : List (Request × Reply)}
  {result : Batch} {position : Nat}

/-- Only the parts at the positions matter. -/
theorem congr {batch' : Batch} (h : Delivered codec positions batch' talk result)
    (hsame : ∀ p ∈ positions, batch'.get? p = batch.get? p) :
    Delivered codec positions batch talk result := by
  have hrequest : ∀ p ∈ positions, requestAt? codec batch' p = requestAt? codec batch p :=
    fun p hp ↦ by rw [requestAt?, requestAt?, hsame p hp]
  have hfilter : positions.filter (fun p ↦ (requestAt? codec batch' p).isSome) =
      positions.filter fun p ↦ (requestAt? codec batch p).isSome :=
    List.filter_congr fun p hp ↦ by rw [hrequest p hp]
  refine ⟨h.requests.trans (List.filterMap_congr hrequest), fun p request reply hmem ↦ ?_⟩
  rw [← hfilter] at hmem
  rw [h.received p request reply hmem,
    hsame p (List.mem_filter.mp (List.of_mem_zip hmem).1).1]

/-- A part that cannot be framed is passed over. -/
theorem skip (h : Delivered codec positions batch talk result)
    (hnone : requestAt? codec batch position = none) :
    Delivered codec (position :: positions) batch talk result := by
  refine ⟨by rw [h.requests, List.filterMap_cons_none hnone], ?_⟩
  rw [List.filter_cons_of_neg (by simp [hnone])]
  exact h.received

/-- A part that can be framed is heard of first. -/
theorem exchange {request : Request} {reply : Reply}
    (h : Delivered codec positions batch talk result)
    (hsome : requestAt? codec batch position = some request)
    (hreceived : result.get? position = (batch.get? position).map (·.receive reply)) :
    Delivered codec (position :: positions) batch ((request, reply) :: talk) result := by
  refine ⟨by rw [List.map_cons, h.requests, List.filterMap_cons_some hsome], ?_⟩
  rw [List.filter_cons_of_pos (by simp [hsome])]
  intro p r reply' hmem
  obtain heq | hmem := List.mem_cons.mp hmem
  · obtain ⟨rfl, -, rfl⟩ : p = position ∧ r = request ∧ reply' = reply := by simpa using heq
    exact hreceived
  · exact h.received p r reply' hmem

end Delivered

/-- Visits to different positions process each part there once. -/
theorem delivered_of_nodup {codec : Codec} (hlines : codec ≠ .lines) {positions : List Nat}
    (hnodup : positions.Nodup) {batch : Batch} (hlt : ∀ p ∈ positions, p < batch.size)
    (tally : Tally) {σ : Type} (peer : Request → σ → Reply × σ) (state : σ) :
    let d := visitAll codec positions batch tally
    Delivered codec positions batch (d.transcript peer state) (d.run peer state).1.1 ∧
      ∀ p ∉ positions, (d.run peer state).1.1.get? p = batch.get? p := by
  induction positions generalizing batch tally state with
  | nil => exact ⟨⟨rfl, by simp⟩, fun _ _ ↦ rfl⟩
  | cons p rest ih =>
    obtain ⟨hnotin, hnodup⟩ := List.nodup_cons.mp hnodup
    have hp : p < batch.parts.length := hlt p List.mem_cons_self
    obtain ⟨part, hpart⟩ : ∃ part, batch.get? p = some part := ⟨_, List.getElem?_eq_getElem hp⟩
    have hrequest : requestAt? codec batch p = request? codec part.data := by
      rw [requestAt?, hpart, Option.bind_some]
    -- The rest of the visits, after the part has become another one.
    have hrest (part' : Part) (t : Tally) (state : σ) :
        let d := visitAll codec rest ⟨batch.parts.set p part'⟩ t
        Delivered codec rest batch (d.transcript peer state) (d.run peer state).1.1 ∧
          (d.run peer state).1.1.get? p = some part' ∧
          ∀ q ∉ p :: rest, (d.run peer state).1.1.get? q = batch.get? q := by
      have hother : ∀ q, q ≠ p →
          (⟨batch.parts.set p part'⟩ : Batch).get? q = batch.get? q := fun q hq ↦
        List.getElem?_set_ne (Ne.symm hq)
      have hlt' : ∀ q ∈ rest, q < (⟨batch.parts.set p part'⟩ : Batch).size := fun q hq ↦ by
        simpa [Batch.size] using hlt q (List.mem_cons_of_mem p hq)
      obtain ⟨hdelivered, hkept⟩ := ih hnodup hlt' t state
      refine ⟨hdelivered.congr fun q hq ↦ hother q fun h ↦ hnotin (h ▸ hq), ?_, fun q hq ↦ ?_⟩
      · rw [hkept p hnotin]
        exact List.getElem?_set_self hp
      · rw [hkept q (List.not_mem_of_not_mem_cons hq), hother q (List.ne_of_not_mem_cons hq)]
    simp only [visitAll, visit_of_get? hpart, Dialogue.bind_eq, Dialogue.bind_assoc]
    cases hframed : request? codec part.data with
    | none =>
      obtain ⟨part', t, htreat⟩ := treat_of_request?_eq_none hlines hframed tally
      obtain ⟨hdelivered, -, hkept⟩ := hrest part' t state
      rw [htreat]
      exact ⟨hdelivered.skip (hrequest.trans hframed), hkept⟩
    | some request =>
      obtain ⟨t, htreat⟩ := treat_of_request?_eq_some hlines hframed tally
      obtain ⟨hdelivered, hself, hkept⟩ := hrest (part.receive (peer request state).1)
        (t (peer request state).1) (peer request state).2
      rw [htreat]
      refine ⟨hdelivered.exchange (hrequest.trans hframed) ?_, hkept⟩
      rw [hpart]
      exact hself

/-! ## Once -/

/-- A batch is processed part by part, each selected part once: no position is selected twice, as
many parts are counted as are selected, and unless parts are sent line by line each part that can
be framed is sent as it was, once, and receives the reply to that. -/
structure ProcessesOnce (config : Config) (batch : Batch) : Prop where
  nodup : (targets config batch).Nodup
  counted : ∀ {σ : Type} (peer : Request → σ → Reply × σ) (state : σ) (tally : Tally),
    ((process config batch tally).run peer state).1.2.parts =
      tally.parts + UInt64.ofNat (targets config batch).dedup.length
  delivered : config.codecSend ≠ .lines →
    ∀ {σ : Type} (peer : Request → σ → Reply × σ) (state : σ) (tally : Tally),
      Delivered config.codecSend (targets config batch) batch
        ((process config batch tally).transcript peer state)
        ((process config batch tally).run peer state).1.1

/-- Each selected part is processed once exactly when the indices of the selection name different
positions of the batch. -/
theorem processesOnce_iff_distinct (config : Config) (batch : Batch) :
    ProcessesOnce config batch ↔ Distinct config batch := by
  refine ⟨fun h ↦ nodup_targets_iff.mp h.nodup, fun h ↦ ?_⟩
  have hnodup := nodup_targets_iff.mpr h
  refine ⟨hnodup, fun peer state tally ↦ ?_, fun hlines σ peer state tally ↦ ?_⟩
  · rw [hnodup.dedup]
    exact (process_parts config batch tally).run peer (fun _ _ ↦ trivial) state
  · have hvisits := (delivered_of_nodup hlines hnodup (fun _ ↦ lt_of_mem_targets) tally peer
      state).1
    simpa only [process, Dialogue.bind_eq, Dialogue.transcript_bind, Dialogue.run_bind,
      Dialogue.transcript, Dialogue.run, List.append_nil] using hvisits

/-- A child that answers with the number of the request and an exclamation mark. -/
private def enumerate (_ : Request) (count : Nat) : Reply × Nat :=
  (.ok (Decimal.digits (count + 1) ++ [0x21, Bytes.newline]), count + 1)

/-- In a batch of one part the first and the last are the same: the part is counted twice, and it
ends up with the answer to its answer. -/
theorem not_processesOnce_of_single :
    let config : Config :=
      { codecSend := .netstring, codecRecv := .netstring, parts := [0, -1] }
    let batch := Batch.ofPayloads [[0x61, Bytes.newline]]
    let d := process config batch {}
    targets config batch = [0, 0] ∧
      (d.run enumerate 0).1.2.parts = 2 ∧
      (d.run enumerate 0).1.1 = Batch.ofPayloads [[0x32, 0x21, Bytes.newline]] ∧
      (d.transcript enumerate 0).map (·.1.payload) =
        [[0x61, Bytes.newline], [0x31, 0x21, Bytes.newline]] ∧
      ¬ ProcessesOnce config batch := by
  refine ⟨by decide, by decide, ?_, ?_, fun h ↦ ?_⟩
  · decide +kernel
  · decide +kernel
  · exact absurd h.nodup (by decide)

end Stage
end Sidecar
