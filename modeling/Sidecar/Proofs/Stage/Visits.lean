import Sidecar.Proofs.Bytes.Segments
import Sidecar.Proofs.Stage.Selection

/-!
# Visits

What a stage does to a batch is told visit by visit. A visit finds a part, tries to send each of its
pieces, and leaves the part with the results of these trials and the text of the last failure. A
trial and a visit carry the proofs that nothing was left out: every piece was tried, whatever came
of the pieces before it. Processing a batch is a fold over the visits to the selected positions
(`process_leads`, `process_by_visits`).
-/

namespace Sidecar

namespace Codec

/-- The pieces of a payload that are sent one by one: its lines, or the whole. No line begins after
a newline at the end. -/
def pieces (codec : Codec) (data : Bytes) : List Bytes :=
  match codec with
  | .lines =>
    if data.getLast? = some Bytes.newline then (Bytes.segments data).dropLast
    else Bytes.segments data
  | .lengthPrefixed => [data]
  | .netstring => [data]

/-- What stands behind the pieces and is not sent: the empty piece after a newline at the end. -/
def remainder (codec : Codec) (data : Bytes) : List Bytes :=
  if codec = .lines ∧ data.getLast? = some Bytes.newline then [[]] else []

/-- With every codec but that of lines a payload is one piece. -/
theorem pieces_of_ne {codec : Codec} (h : codec ≠ .lines) (data : Bytes) :
    codec.pieces data = [data] := by
  cases codec with
  | lines => exact absurd rfl h
  | lengthPrefixed => rfl
  | netstring => rfl

/-- A payload that ends in a newline has its lines for pieces, and an empty one behind them. -/
theorem segments_of_newline {data : Bytes} (h : data.getLast? = some Bytes.newline) :
    Bytes.segments data = Codec.lines.pieces data ++ [[]] ∧ Codec.lines.pieces data ≠ [] := by
  obtain ⟨front, rfl⟩ := List.getLast?_eq_some_iff.mp h
  have hcut : Bytes.segments (front ++ [Bytes.newline]) = Bytes.segments front ++ [[]] :=
    List.splitOn_append_cons_self front []
  have hpieces : Codec.lines.pieces (front ++ [Bytes.newline]) = Bytes.segments front := by
    rw [pieces, if_pos h, hcut, List.dropLast_concat]
  rw [hpieces]
  exact ⟨hcut, Bytes.segments_ne_nil front⟩

/-- A payload that does not end in a newline has no empty piece behind others. -/
theorem segments_of_not_newline {data : Bytes} (h : data.getLast? ≠ some Bytes.newline)
    {front : List Bytes} (hcut : Bytes.segments data = front ++ [[]]) : front = [] := by
  by_contra hne
  apply h
  rw [← Bytes.joinSegments_segments data, hcut, Bytes.joinSegments_concat hne]
  exact List.getLast?_concat

end Codec

namespace Stage

open Dialogue (Leads)

/-! ## Trials -/

/-- A payload that was to be sent, and what came of it. What cannot be framed fails, and is not
sent. -/
structure Trial (codec : Codec) where
  payload : Bytes
  reply : Reply
  unframed : ∀ fault, codec.envelope payload.length = .error fault →
    reply = .error (.framing fault)

namespace Trial

variable {codec : Codec} (t : Trial codec)

/-- What the payload is replaced by: its answer, or itself. -/
def result : Bytes :=
  match t.reply with
  | .ok answer => answer
  | .error _ => t.payload

/-- Why there is no answer, if there is none. -/
def failure? : Option Failure :=
  match t.reply with
  | .ok _ => none
  | .error failure => some failure

/-- What was said: the request with its reply, if the payload could be framed. -/
def talk : List (Request × Reply) := (request? codec t.payload).toList.map (·, t.reply)

/-- Counts the trial. -/
def count (tally : Tally) : Tally :=
  match t.reply with
  | .ok _ => tally.countAnswered
  | .error _ => tally.countFailed

end Trial

/-- The last failure among some trials. -/
def lastFailure? {codec : Codec} (trials : List (Trial codec)) : Option Failure :=
  (trials.filterMap Trial.failure?).getLast?

/-- The last failure is the last one of the later trials, if there is one among them. -/
theorem lastFailure?_append {codec : Codec} (trials more : List (Trial codec)) :
    lastFailure? (trials ++ more) = (lastFailure? more).or (lastFailure? trials) := by
  rw [lastFailure?, List.filterMap_append, List.getLast?_append]
  rfl

section

variable {σ : Type} (peer : Request → σ → Reply × σ) {codec : Codec}

/-- Sending a payload is a trial. -/
theorem exchange_leads (codec : Codec) (payload : Bytes) (tally : Tally) (state : σ) :
    ∃ (t : Trial codec) (last : σ), t.payload = payload ∧
      Leads peer (exchange codec payload tally) state t.talk (.done (t.reply, t.count tally))
        last := by
  cases henvelope : codec.envelope payload.length with
  | error fault =>
    have hunframed (fault' : Codec.Fault) (h : codec.envelope payload.length = .error fault') :
        (.error (.framing fault) : Reply) = .error (.framing fault') := by
      cases henvelope.symm.trans h
      rfl
    refine ⟨⟨payload, .error (.framing fault), hunframed⟩, state, rfl, ?_⟩
    simp only [exchange, henvelope, Trial.talk, request?, Trial.count]
    exact .start
  | ok envelope =>
    have hunframed (fault : Codec.Fault) (h : codec.envelope payload.length = .error fault) :
        (peer ⟨envelope, payload⟩ state).1 = .error (.framing fault) := by
      cases henvelope.symm.trans h
    refine ⟨⟨payload, _, hunframed⟩, (peer ⟨envelope, payload⟩ state).2, rfl, ?_⟩
    have hasks : Leads peer (exchange codec payload tally) state []
        (exchange codec payload tally) state := .start
    simp only [exchange, henvelope] at hasks ⊢
    simp only [Trial.talk, request?, henvelope, Trial.count]
    have hends := hasks.reply
    cases hreply : (peer ⟨envelope, payload⟩ state).1 with
    | ok answer => rwa [hreply] at hends
    | error failure => rwa [hreply] at hends

/-- What has been gathered after one more line. -/
def Gathered.after (g : Gathered) (t : Trial .lines) : Gathered :=
  g.add t.payload t.reply (t.count g.tally)

/-- What has been gathered after some more lines. -/
theorem foldl_after (trials : List (Trial .lines)) (g : Gathered) :
    trials.foldl Gathered.after g =
      { results := (trials.map Trial.result).reverse ++ g.results
        failure := (lastFailure? trials).or g.failure
        tally := trials.foldl (fun tally t ↦ t.count tally) g.tally } := by
  induction trials generalizing g with
  | nil => rfl
  | cons t rest ih =>
    have hlast : lastFailure? (t :: rest) = (lastFailure? rest).or t.failure? := by
      rw [← List.singleton_append, lastFailure?_append]
      cases h : t.failure? <;> simp [lastFailure?, h]
    rw [List.foldl_cons, ih, hlast, List.map_cons, List.reverse_cons, List.append_assoc,
      List.foldl_cons]
    cases hreply : t.reply with
    | ok answer => simp [Gathered.after, Gathered.add, Trial.result, Trial.failure?, hreply]
    | error failure => simp [Gathered.after, Gathered.add, Trial.result, Trial.failure?, hreply]

/-- Lines that stand before another one are all sent. -/
theorem exchangeLines_leads_front (front : List Bytes) {rest : List Bytes} (hrest : rest ≠ [])
    (g : Gathered) (state : σ) :
    ∃ (trials : List (Trial .lines)) (last : σ), trials.map (·.payload) = front ∧
      Leads peer (exchangeLines (front ++ rest) g) state (trials.flatMap Trial.talk)
        (exchangeLines rest (trials.foldl Gathered.after g)) last := by
  induction front generalizing g state with
  | nil => exact ⟨[], state, rfl, .start⟩
  | cons line front ih =>
    have hsent : ¬ (line = [] ∧ front ++ rest = [] ∧ g.results ≠ []) := by
      rintro ⟨-, hnil, -⟩
      exact hrest (List.append_eq_nil_iff.mp hnil).2
    obtain ⟨t, mid, rfl, ht⟩ := exchange_leads peer .lines line g.tally state
    obtain ⟨trials, last, rfl, htrials⟩ := ih (g.after t) mid
    refine ⟨t :: trials, last, rfl, ?_⟩
    rw [List.cons_append, exchangeLines_cons hsent]
    exact ht.andThen htrials

/-- Lines are all sent but for an empty one at the end, behind others. -/
theorem exchangeLines_leads (data : Bytes) {g : Gathered} (hg : g.results = []) (state : σ) :
    ∃ (trials : List (Trial .lines)) (last : σ), trials.map (·.payload) = Codec.lines.pieces data ∧
      Leads peer (exchangeLines (Bytes.segments data) g) state (trials.flatMap Trial.talk)
        (.done { trials.foldl Gathered.after g with
          results := (Codec.lines.remainder data).reverse ++ (trials.map Trial.result).reverse })
        last := by
  have hresults (trials : List (Trial .lines)) :
      (trials.foldl Gathered.after g).results = (trials.map Trial.result).reverse := by
    rw [foldl_after, hg, List.append_nil]
  by_cases hends : data.getLast? = some Bytes.newline
  · obtain ⟨hcut, hne⟩ := Codec.segments_of_newline hends
    obtain ⟨trials, last, hpieces, htrials⟩ :=
      exchangeLines_leads_front peer (Codec.lines.pieces data) (List.cons_ne_nil [] []) g state
    have hothers : (trials.foldl Gathered.after g).results ≠ [] := by
      rw [hresults]
      simpa [← hpieces] using hne
    have hremainder : Codec.lines.remainder data = [[]] := if_pos ⟨rfl, hends⟩
    rw [exchangeLines_trailing hothers, hresults] at htrials
    rw [hcut, hremainder]
    exact ⟨trials, last, hpieces, htrials⟩
  · have hcut := (List.dropLast_concat_getLast (Bytes.segments_ne_nil data)).symm
    generalize (Bytes.segments data).getLast (Bytes.segments_ne_nil data) = line at hcut
    generalize (Bytes.segments data).dropLast = front at hcut
    obtain ⟨trials, mid, rfl, htrials⟩ :=
      exchangeLines_leads_front peer front (List.cons_ne_nil line []) g state
    have hsent : ¬ (line = [] ∧ ([] : List Bytes) = [] ∧
        (trials.foldl Gathered.after g).results ≠ []) := by
      rintro ⟨rfl, -, hothers⟩
      apply hothers
      have hnone := Codec.segments_of_not_newline hends hcut
      rw [hresults, List.map_eq_nil_iff.mp hnone]
      rfl
    obtain ⟨t, last, rfl, ht⟩ :=
      exchange_leads peer .lines line (trials.foldl Gathered.after g).tally mid
    have hpieces : Codec.lines.pieces data = (trials ++ [t]).map (·.payload) := by
      rw [Codec.pieces, if_neg hends, hcut, List.map_append]
      rfl
    have hremainder : Codec.lines.remainder data = [] := if_neg fun h ↦ hends h.2
    have hafter : { (trials ++ [t]).foldl Gathered.after g with
        results := ([] : List Bytes) ++ ((trials ++ [t]).map Trial.result).reverse } =
          (trials.foldl Gathered.after g).after t := by
      rw [List.nil_append, ← hresults, List.foldl_append]
      rfl
    refine ⟨trials ++ [t], last, hpieces.symm, ?_⟩
    rw [hcut, hremainder, List.reverse_nil, hafter, List.flatMap_append]
    apply htrials.trans
    rw [exchangeLines_cons hsent, List.flatMap_singleton]
    exact ht.next rfl

/-- Processing a payload tries its pieces, one after the other. -/
theorem processPart_leads (codec : Codec) (data : Bytes) (tally : Tally) (state : σ) :
    ∃ (trials : List (Trial codec)) (last : σ), trials.map (·.payload) = codec.pieces data ∧
      Leads peer (processPart codec data tally) state (trials.flatMap Trial.talk)
        (.done (Bytes.joinSegments (trials.map Trial.result ++ codec.remainder data),
          lastFailure? trials, trials.foldl (fun tally t ↦ t.count tally) tally)) last := by
  by_cases hlines : codec = .lines
  · subst hlines
    obtain ⟨trials, last, hpieces, htrials⟩ :=
      exchangeLines_leads peer data (g := ⟨[], none, tally⟩) rfl state
    refine ⟨trials, last, hpieces, ?_⟩
    rw [foldl_after] at htrials
    rw [processPart, Dialogue.bind_eq]
    exact htrials.next (by simp)
  · obtain ⟨t, last, rfl, ht⟩ := exchange_leads peer codec data tally state
    refine ⟨[t], last, (Codec.pieces_of_ne hlines t.payload).symm, ?_⟩
    have hremainder : codec.remainder t.payload = [] := if_neg fun h ↦ hlines h.1
    have hjoined : Bytes.joinSegments ([t].map Trial.result ++ []) = t.result :=
      Bytes.joinSegments_singleton t.result
    rw [processPart_of_ne hlines, hremainder, hjoined, List.flatMap_singleton]
    apply ht.next
    simp only [Trial.result, Trial.failure?, lastFailure?, List.filterMap_cons]
    cases t.reply <;> rfl

end

/-! ## Visits -/

/-- A visit to a part: what it was found to be, and the trials of all its pieces, in order. -/
structure Visit (codec : Codec) where
  position : Nat
  found : Part
  trials : List (Trial codec)
  complete : trials.map (·.payload) = codec.pieces found.data

namespace Visit

variable {codec : Codec} (v : Visit codec)

/-- What the part is left as: its pieces are replaced by their results, and the last failure, if
there is one, is attached to it. -/
def left : Part where
  data := Bytes.joinSegments (v.trials.map Trial.result ++ codec.remainder v.found.data)
  error := ((lastFailure? v.trials).map Failure.message).or v.found.error

/-- A batch after the visit. -/
def put (batch : Batch) : Batch := ⟨batch.parts.set v.position v.left⟩

/-- A visit keeps the number of parts. -/
@[simp] theorem size_put (batch : Batch) : (v.put batch).size = batch.size := List.length_set

/-- What was said in the course of the visit. -/
def talk : List (Request × Reply) := v.trials.flatMap Trial.talk

/-- Counts the visit. -/
def count (tally : Tally) : Tally := v.trials.foldl (fun tally t ↦ t.count tally) tally.countPart

end Visit

/-- A batch after some visits. -/
def afterVisits {codec : Codec} (visits : List (Visit codec)) (batch : Batch) : Batch :=
  visits.foldl (fun batch v ↦ v.put batch) batch

/-- Every visit finds its part as the visits before it have left the batch. -/
def Finds {codec : Codec} (batch : Batch) : List (Visit codec) → Prop
  | [] => True
  | v :: rest => batch.get? v.position = some v.found ∧ Finds (v.put batch) rest

section

variable {σ : Type} (peer : Request → σ → Reply × σ) (codec : Codec)

/-- Processing the payload of a part makes up a visit to the part. -/
theorem exists_visit (position : Nat) (part : Part) (tally : Tally) (state : σ) :
    ∃ (v : Visit codec) (last : σ), v.position = position ∧ v.found = part ∧
      Leads peer (processPart codec part.data tally.countPart) state v.talk
        (.done (v.left.data, lastFailure? v.trials, v.count tally)) last := by
  obtain ⟨trials, last, hpieces, htrials⟩ :=
    processPart_leads peer codec part.data tally.countPart state
  exact ⟨⟨position, part, trials, hpieces⟩, last, rfl, rfl, htrials⟩

variable {peer codec}

/-- When the payload of a part has been processed, the part is put back as the visit leaves it. -/
theorem Visit.leads {v : Visit codec} {tally : Tally} {state last : σ}
    (h : Leads peer (processPart codec v.found.data tally.countPart) state v.talk
      (.done (v.left.data, lastFailure? v.trials, v.count tally)) last)
    {batch : Batch} (hget : batch.get? v.position = some v.found) :
    Leads peer (visit codec v.position batch tally) state v.talk
      (.done (v.put batch, v.count tally)) last := by
  have htreat : Leads peer (treat codec v.found tally) state v.talk
      (.done (v.left, v.count tally)) last := by
    rw [treat, Dialogue.bind_eq]
    apply h.next
    simp only [Visit.left]
    cases lastFailure? v.trials with
    | none => rfl
    | some failure => rfl
  rw [visit_of_get? hget]
  exact htreat.next rfl

variable (peer codec)

/-- Processing the parts at some positions is a visit to each of them, in order. -/
theorem visitAll_leads {positions : List Nat} {batch : Batch}
    (hlt : ∀ p ∈ positions, p < batch.size) (tally : Tally) (state : σ) :
    ∃ (visits : List (Visit codec)) (last : σ), visits.map (·.position) = positions ∧
      Finds batch visits ∧
      Leads peer (visitAll codec positions batch tally) state (visits.flatMap Visit.talk)
        (.done (afterVisits visits batch, visits.foldl (fun tally v ↦ v.count tally) tally))
        last := by
  induction positions generalizing batch tally state with
  | nil => exact ⟨[], state, rfl, trivial, .start⟩
  | cons position rest ih =>
    have hposition : position < batch.parts.length := hlt position List.mem_cons_self
    have hget : batch.get? position = some batch.parts[position] :=
      List.getElem?_eq_getElem hposition
    obtain ⟨v, mid, rfl, hfound, hv⟩ :=
      exists_visit peer codec position batch.parts[position] tally state
    rw [← hfound] at hv hget
    have hrest : ∀ p ∈ rest, p < (v.put batch).size := by
      intro p hp
      rw [Visit.size_put]
      exact hlt p (List.mem_cons_of_mem _ hp)
    obtain ⟨visits, last, rfl, hfinds, hvisits⟩ := ih hrest (v.count tally) mid
    refine ⟨v :: visits, last, rfl, ⟨hget, hfinds⟩, ?_⟩
    rw [visitAll, Dialogue.bind_eq]
    exact (Visit.leads hv hget).andThen hvisits

/-- Processing a batch is a visit to each selected position, in the order of the selection. -/
theorem process_leads (config : Config) (batch : Batch) (tally : Tally) (state : σ) :
    ∃ (visits : List (Visit config.codecSend)) (last : σ),
      visits.map (·.position) = targets config batch ∧ Finds batch visits ∧
      Leads peer (process config batch tally) state (visits.flatMap Visit.talk)
        (.done (afterVisits visits batch,
          (visits.foldl (fun tally v ↦ v.count tally) tally).countBatch)) last := by
  obtain ⟨visits, last, hpositions, hfinds, hvisits⟩ :=
    visitAll_leads peer config.codecSend (fun _ ↦ lt_of_mem_targets) tally state
  refine ⟨visits, last, hpositions, hfinds, ?_⟩
  rw [process, Dialogue.bind_eq]
  exact hvisits.next rfl

end

/-! ## Whole batches -/

/-- What processing a batch comes to, told visit by visit. -/
structure Recounts (config : Config) (batch : Batch) (visits : List (Visit config.codecSend))
    (talk : List (Request × Reply)) (result : Batch) : Prop where
  /-- Every selected position is visited, in the order of the selection. -/
  positions : visits.map (·.position) = targets config batch
  finds : Finds batch visits
  /-- Nothing is said but in the visits. -/
  talk : talk = visits.flatMap Visit.talk
  result : result = afterVisits visits batch

/-- Processing a batch is told by visits, and the visits and the batch are counted. -/
theorem exists_recounts (config : Config) (batch : Batch) (tally : Tally) {σ : Type}
    (peer : Request → σ → Reply × σ) (state : σ) :
    let dialogue := process config batch tally
    ∃ visits : List (Visit config.codecSend),
      Recounts config batch visits (dialogue.transcript peer state)
        (dialogue.run peer state).1.1 ∧
      (dialogue.run peer state).1.2 =
        (visits.foldl (fun tally v ↦ v.count tally) tally).countBatch := by
  obtain ⟨visits, last, hpositions, hfinds, hleads⟩ := process_leads peer config batch tally state
  refine ⟨visits, ⟨hpositions, hfinds, ?_, ?_⟩, ?_⟩
  · rw [hleads.transcript, Dialogue.transcript, List.append_nil]
  · rw [hleads.run, Dialogue.run]
  · rw [hleads.run, Dialogue.run]

section

variable {codec : Codec} {visits : List (Visit codec)} {batch : Batch} {position : Nat}

/-- Visits keep the number of parts. -/
theorem size_afterVisits (visits : List (Visit codec)) (batch : Batch) :
    (afterVisits visits batch).size = batch.size := by
  induction visits generalizing batch with
  | nil => rfl
  | cons v rest ih => exact (ih (v.put batch)).trans (v.size_put batch)

/-- Where no visit is made the part stays what it is. -/
theorem get?_afterVisits_of_notMem (h : position ∉ visits.map (·.position)) :
    (afterVisits visits batch).get? position = batch.get? position := by
  induction visits generalizing batch with
  | nil => rfl
  | cons v rest ih =>
    rw [List.map_cons, List.mem_cons, not_or] at h
    have hother : (v.put batch).get? position = batch.get? position :=
      List.getElem?_set_ne (Ne.symm h.1)
    exact (ih h.2).trans hother

/-- The trials made for the part at a position, in all visits to it. -/
def trialsAt (visits : List (Visit codec)) (position : Nat) : List (Trial codec) :=
  (visits.filter (·.position = position)).flatMap (·.trials)

/-- A part has the text of the last failure among all trials made for it, or what it had before. -/
theorem error_afterVisits (hfinds : Finds batch visits) {part : Part}
    (hget : batch.get? position = some part) :
    ∃ part', (afterVisits visits batch).get? position = some part' ∧
      part'.error = ((lastFailure? (trialsAt visits position)).map Failure.message).or
        part.error := by
  induction visits generalizing batch part with
  | nil => exact ⟨part, hget, rfl⟩
  | cons v rest ih =>
    obtain ⟨hfound, hrest⟩ := hfinds
    by_cases hhere : v.position = position
    · subst hhere
      obtain rfl := Option.some.inj (hfound.symm.trans hget)
      have hlt : v.position < batch.parts.length := (List.getElem?_eq_some_iff.mp hget).1
      have hleft : (v.put batch).get? v.position = some v.left := List.getElem?_set_self hlt
      obtain ⟨part', hpart', herror⟩ := ih hrest hleft
      have htrials : trialsAt (v :: rest) v.position = v.trials ++ trialsAt rest v.position := by
        simp [trialsAt]
      refine ⟨part', hpart', ?_⟩
      rw [herror, htrials, lastFailure?_append, Option.map_or, Option.or_assoc]
      rfl
    · have hother : (v.put batch).get? position = some part :=
        (List.getElem?_set_ne hhere).trans hget
      have htrials : trialsAt (v :: rest) position = trialsAt rest position := by
        simp [trialsAt, hhere]
      rw [htrials]
      exact ih hrest hother

/-- What was asked in a visit are the pieces of the part, as far as they can be framed. -/
theorem Visit.requests (v : Visit codec) :
    v.talk.map Prod.fst = (codec.pieces v.found.data).filterMap (request? codec) := by
  rw [← v.complete, Visit.talk]
  induction v.trials with
  | nil => rfl
  | cons t rest ih =>
    rw [List.flatMap_cons, List.map_append, ih, List.map_cons]
    cases hrequest : request? codec t.payload with
    | none => simp [Trial.talk, hrequest]
    | some request => simp [Trial.talk, hrequest]

/-- With a sized codec a visit is one trial of the whole part. -/
theorem Visit.sole (v : Visit codec) (hsized : codec ≠ .lines) :
    ∃ t, v.trials = [t] ∧ t.payload = v.found.data ∧ v.left.data = t.result := by
  have hcomplete := v.complete
  rw [Codec.pieces_of_ne hsized] at hcomplete
  obtain ⟨t, htrials, hpayload⟩ := List.map_eq_singleton_iff.mp hcomplete
  refine ⟨t, htrials, hpayload, ?_⟩
  have hremainder : codec.remainder v.found.data = [] := if_neg fun h ↦ hsized h.1
  rw [Visit.left, htrials, hremainder]
  exact Bytes.joinSegments_singleton t.result

end

/-- Processing a batch folds visits to the selected positions, in the order of the selection, over
it. The parts stay as many and where they are, and those that are not selected stay what they are.
A sized codec replaces a part by the answer, if there is one. The text of the last failure of all
exchanges for a part is attached to it, and where none has failed it keeps what it had. Whatever
fails, every piece of every part that is visited is sent, unless it cannot be framed. -/
theorem process_by_visits (config : Config) (batch : Batch) (tally : Tally) {σ : Type}
    (peer : Request → σ → Reply × σ) (state : σ) :
    let dialogue := process config batch tally
    let result := (dialogue.run peer state).1.1
    ∃ visits : List (Visit config.codecSend),
      Recounts config batch visits (dialogue.transcript peer state) result ∧
      result.size = batch.size ∧
      (∀ position ∉ targets config batch, result.get? position = batch.get? position) ∧
      (config.codecSend ≠ .lines → ∀ v ∈ visits, ∃ t, v.trials = [t] ∧
        t.payload = v.found.data ∧
        (∀ answer, t.reply = .ok answer → v.left.data = answer) ∧
        (∀ failure, t.reply = .error failure → v.left.data = v.found.data)) ∧
      (∀ position part, batch.get? position = some part →
        ∃ part', result.get? position = some part' ∧
          part'.error = ((lastFailure? (trialsAt visits position)).map Failure.message).or
            part.error) ∧
      (dialogue.transcript peer state).map Prod.fst = visits.flatMap fun v ↦
        (config.codecSend.pieces v.found.data).filterMap (request? config.codecSend) := by
  intro dialogue result
  obtain ⟨visits, hrecounts, -⟩ := exists_recounts config batch tally peer state
  have hresult : result = afterVisits visits batch := hrecounts.result
  refine ⟨visits, hrecounts, ?_, ?_, ?_, ?_, ?_⟩
  · rw [hresult, size_afterVisits]
  · intro position hnot
    rw [← hrecounts.positions] at hnot
    rw [hresult, get?_afterVisits_of_notMem hnot]
  · intro hsized v _
    obtain ⟨t, htrials, hpayload, hdata⟩ := v.sole hsized
    refine ⟨t, htrials, hpayload, ?_, ?_⟩
    · intro answer hreply
      rw [hdata, Trial.result, hreply]
    · intro failure hreply
      rw [hdata, Trial.result, hreply, hpayload]
  · intro position part hget
    rw [hresult]
    exact error_afterVisits hrecounts.finds hget
  · rw [show dialogue.transcript peer state = _ from hrecounts.talk, List.map_flatMap]
    simp only [Visit.requests]

end Stage
end Sidecar
