import Mathlib.Data.List.Forall2
import Sidecar.Proofs.Stage.Turns
import Sidecar.Proofs.Stage.Visits

/-!
# What the counters of a stage count

The counters are words and wrap around, so that a counter shows how much was counted modulo 2^64
(`Tally.plus`). A visit counts its part once and each of its trials once, as answered or as failed,
and a call counts its batch. After any calls, one after the other, the counters show the numbers of
calls, of visits, and of answered and failed trials of all visits (`tally_of_calls`).
-/

namespace Sidecar

/-- How much has been counted. -/
structure Counts where
  parts : Nat := 0
  failed : Nat := 0
  answered : Nat := 0
  batches : Nat := 0

namespace Tally

/-- A tally after something has been counted. -/
def plus (t : Tally) (c : Counts) : Tally where
  parts := t.parts + .ofNat c.parts
  failed := t.failed + .ofNat c.failed
  answered := t.answered + .ofNat c.answered
  batches := t.batches + .ofNat c.batches

/-- Counting nothing changes nothing. -/
theorem plus_nothing (t : Tally) : t.plus {} = t := by
  simp [plus]

/-- Counting twice counts the sum. -/
theorem plus_plus (t : Tally) (c c' : Counts) :
    (t.plus c).plus c' =
      t.plus ⟨c.parts + c'.parts, c.failed + c'.failed, c.answered + c'.answered,
        c.batches + c'.batches⟩ := by
  simp only [plus, UInt64.ofNat_add, UInt64.add_assoc]

end Tally

namespace Stage

section

variable {codec : Codec}

/-- The number of trials that got an answer. -/
def answeredIn (trials : List (Trial codec)) : Nat := trials.countP (·.reply.isOk)

/-- The number of trials that failed, among them those that could not be framed. -/
def failedIn (trials : List (Trial codec)) : Nat := trials.countP (!·.reply.isOk)

/-- A trial is answered or fails. -/
theorem answeredIn_add_failedIn (trials : List (Trial codec)) :
    answeredIn trials + failedIn trials = trials.length := by
  rw [List.length_eq_countP_add_countP (·.reply.isOk), answeredIn, failedIn]
  simp

/-- There is a last failure where something failed. -/
theorem isSome_lastFailure?_iff (trials : List (Trial codec)) :
    (lastFailure? trials).isSome ↔ 0 < failedIn trials := by
  have hanswered (t : Trial codec) : t.failure? = none ↔ ¬ (!t.reply.isOk) = true := by
    rw [Trial.failure?]
    cases t.reply <;> simp [Except.isOk, Except.toBool]
  rw [lastFailure?, List.getLast?_isSome, failedIn, Nat.pos_iff_ne_zero, ne_eq, ne_eq,
    List.filterMap_eq_nil_iff, List.countP_eq_zero]
  simp only [hanswered]

/-- Trials are counted one by one. -/
theorem foldl_count_trials (trials : List (Trial codec)) (tally : Tally) :
    trials.foldl (fun tally t ↦ t.count tally) tally =
      tally.plus { failed := failedIn trials, answered := answeredIn trials } := by
  induction trials generalizing tally with
  | nil => exact tally.plus_nothing.symm
  | cons t rest ih =>
    rw [List.foldl_cons, ih]
    cases hreply : t.reply with
    | ok answer =>
      have hcount : t.count tally = tally.plus { answered := 1 } := by
        simp [Trial.count, hreply, Tally.countAnswered, Tally.plus]
      rw [hcount, Tally.plus_plus]
      simp [failedIn, answeredIn, hreply, Except.isOk, Except.toBool, Nat.add_comm]
    | error failure =>
      have hcount : t.count tally = tally.plus { failed := 1 } := by
        simp [Trial.count, hreply, Tally.countFailed, Tally.plus]
      rw [hcount, Tally.plus_plus]
      simp [failedIn, answeredIn, hreply, Except.isOk, Except.toBool, Nat.add_comm]

/-- All trials of some visits. -/
def trialsOf (visits : List (Visit codec)) : List (Trial codec) := visits.flatMap (·.trials)

/-- A visit counts its part and its trials. -/
theorem Visit.count_eq (v : Visit codec) (tally : Tally) :
    v.count tally =
      tally.plus
        { parts := 1, failed := failedIn v.trials, answered := answeredIn v.trials } := by
  have hpart : tally.countPart = tally.plus { parts := 1 } := by
    simp [Tally.countPart, Tally.plus]
  rw [Visit.count, foldl_count_trials, hpart, Tally.plus_plus]
  simp

/-- Visits are counted one by one. -/
theorem foldl_count_visits (visits : List (Visit codec)) (tally : Tally) :
    visits.foldl (fun tally v ↦ v.count tally) tally =
      tally.plus
        { parts := visits.length
          failed := failedIn (trialsOf visits), answered := answeredIn (trialsOf visits) } := by
  induction visits generalizing tally with
  | nil => exact tally.plus_nothing.symm
  | cons v rest ih =>
    rw [List.foldl_cons, ih, v.count_eq, Tally.plus_plus]
    simp [trialsOf, failedIn, answeredIn, Nat.add_comm]

/-- The number of requests that a payload comes to: one for each line, or one. -/
def requestCount (codec : Codec) (data : Bytes) : Nat :=
  if codec = .lines then
    (Bytes.segments data).length - if data.getLast? = some Bytes.newline then 1 else 0
  else 1

/-- A payload has as many pieces as it comes to requests. -/
theorem length_pieces (codec : Codec) (data : Bytes) :
    (codec.pieces data).length = requestCount codec data := by
  by_cases hlines : codec = .lines
  · subst hlines
    rw [Codec.pieces, requestCount, if_pos rfl]
    by_cases hends : data.getLast? = some Bytes.newline
    · rw [if_pos hends, if_pos hends, List.length_dropLast]
    · rw [if_neg hends, if_neg hends, Nat.sub_zero]
  · rw [Codec.pieces_of_ne hlines, requestCount, if_neg hlines, List.length_singleton]

/-- A visit makes as many trials as the part comes to requests. -/
theorem Visit.answered_add_failed (v : Visit codec) :
    answeredIn v.trials + failedIn v.trials = requestCount codec v.found.data := by
  rw [answeredIn_add_failedIn, ← length_pieces, ← v.complete, List.length_map]

end

/-! ## A single visit -/

/-- A visit to a part counts the part, and each of its requests as answered or as failed. The part
is flagged where one of them failed. -/
theorem visit_counts (codec : Codec) {position : Nat} {batch : Batch} {part : Part}
    (hget : batch.get? position = some part) (tally : Tally) {σ : Type}
    (peer : Request → σ → Reply × σ) (state : σ) :
    let processed := ((processPart codec part.data tally.countPart).run peer state).1
    let failure? := processed.2.1
    ∃ answered failed : Nat,
      ((visit codec position batch tally).run peer state).1 =
        (⟨batch.parts.set position
          ⟨processed.1, (failure?.map Failure.message).or part.error⟩⟩,
          tally.plus { parts := 1, failed, answered }) ∧
      answered + failed = requestCount codec part.data ∧
      (failure?.isSome ↔ 0 < failed) := by
  obtain ⟨v, last, rfl, rfl, hprocessed⟩ := exists_visit peer codec position part tally state
  have hvisited := Visit.leads hprocessed hget
  refine ⟨answeredIn v.trials, failedIn v.trials, ?_, v.answered_add_failed, ?_⟩
  · rw [hprocessed.run, hvisited.run, v.count_eq]
    rfl
  · rw [hprocessed.run]
    exact isSome_lastFailure?_iff v.trials

/-- A counter grows where something is added that does not make it wrap around. -/
theorem lt_add_ofNat_iff {counter : UInt64} {n : Nat} (h : counter.toNat + n < UInt64.size) :
    counter < counter + .ofNat n ↔ 0 < n := by
  have hn : n % UInt64.size = n := Nat.mod_eq_of_lt (by omega)
  have hsum : (counter + .ofNat n).toNat = counter.toNat + n := by
    rw [UInt64.toNat_add, UInt64.toNat_ofNat', hn, Nat.mod_eq_of_lt h]
  rw [UInt64.lt_iff_toNat_lt, hsum]
  omega

/-! ## Many calls -/

/-- What each of some calls comes to, told visit by visit. -/
def RecountsAll (config : Config) (entries : List Entry)
    (visits : List (List (Visit config.codecSend))) : Prop :=
  List.Forall₂
    (fun entry visits ↦ Recounts config entry.job.batch visits entry.talk entry.result)
    entries visits

/-- After some calls, one after the other, every visit and every trial has been counted. -/
theorem inTurn_counts (config : Config) {σ : Type} (peer : Request → σ → Reply × σ)
    (jobs : List Job) (tally : Tally) (state : σ) :
    let run := inTurn config peer jobs tally state
    ∃ visits : List (List (Visit config.codecSend)),
      run.1.map (·.job) = jobs ∧ RecountsAll config run.1 visits ∧
      run.2.1 = tally.plus
        { parts := (jobs.flatMap fun job ↦ targets config job.batch).length
          failed := failedIn (trialsOf visits.flatten)
          answered := answeredIn (trialsOf visits.flatten)
          batches := jobs.length } := by
  induction jobs generalizing tally state with
  | nil => exact ⟨[], rfl, .nil, tally.plus_nothing.symm⟩
  | cons job rest ih =>
    obtain ⟨first, hfirst, htally⟩ := exists_recounts config job.batch tally peer state
    obtain ⟨visits, hjobs, hrest, hcounts⟩ :=
      ih ((process config job.batch tally).run peer state).1.2
        ((process config job.batch tally).run peer state).2
    have hbatch (t : Tally) : t.countBatch = t.plus { batches := 1 } := by
      simp [Tally.countBatch, Tally.plus]
    have hvisited : first.length = (targets config job.batch).length := by
      rw [← hfirst.positions, List.length_map]
    refine ⟨first :: visits, congrArg (job :: ·) hjobs, .cons hfirst hrest, ?_⟩
    change (inTurn config peer rest _ _).2.1 = _
    rw [hcounts, htally, foldl_count_visits, hbatch, Tally.plus_plus, Tally.plus_plus, hvisited]
    simp [trialsOf, failedIn, answeredIn, Nat.add_comm]

/-- Calls give back batches of the sizes that they were made for. -/
theorem size_result {config : Config} {entries : List Entry}
    {visits : List (List (Visit config.codecSend))} (h : RecountsAll config entries visits) :
    ∀ entry ∈ entries, entry.result.size = entry.job.batch.size := by
  induction h with
  | nil => simp
  | cons hfirst _ ih =>
    intro entry hentry
    rw [List.mem_cons] at hentry
    obtain rfl | hentry := hentry
    · rw [hfirst.result, size_afterVisits]
    · exact ih entry hentry

/-- However often a stage is called, its counters show the numbers of calls that have returned, of
selected positions, and of answered and failed requests, modulo 2^64. A payload that cannot be
framed is among the failed ones, though nothing is sent. A visit to a part counts as many requests
as the part has lines, or one, and the part is flagged when the number of failures has grown. -/
theorem tally_of_calls (config : Config) {σ : Type} (peer : Request → σ → Reply × σ)
    (jobs : List Job) (state : σ) :
    let run := inTurn config peer jobs {} state
    let tally := run.2.1
    (∃ visits : List (List (Visit config.codecSend)),
      run.1.map (·.job) = jobs ∧ RecountsAll config run.1 visits ∧
      tally.batches.toNat = jobs.length % UInt64.size ∧
      tally.parts.toNat = (jobs.flatMap fun job ↦ targets config job.batch).length % UInt64.size ∧
      tally.answered.toNat = answeredIn (trialsOf visits.flatten) % UInt64.size ∧
      tally.failed.toNat = failedIn (trialsOf visits.flatten) % UInt64.size) ∧
    ∀ (position : Nat) (batch : Batch) (part : Part), batch.get? position = some part →
      ∀ (before : Tally) (state : σ),
        let dialogue := processPart config.codecSend part.data before.countPart
        let processed := (dialogue.run peer state).1
        let failure? := processed.2.1
        let visited := ((visit config.codecSend position batch before).run peer state).1
        let after := visited.2
        ∃ answered failed : Nat,
          answered + failed = requestCount config.codecSend part.data ∧
          after = before.plus { parts := 1, failed, answered } ∧
          visited.1 = ⟨batch.parts.set position
            ⟨processed.1, (failure?.map Failure.message).or part.error⟩⟩ ∧
          (failure?.isSome ↔ 0 < failed) ∧
          (before.failed.toNat + failed < UInt64.size →
            (failure?.isSome ↔ before.failed < after.failed)) := by
  intro run tally
  constructor
  · obtain ⟨visits, hjobs, hvisits, htally⟩ := inTurn_counts config peer jobs {} state
    have hcounts : tally = _ := htally
    have hzero (n : Nat) : ((0 : UInt64) + .ofNat n).toNat = n % UInt64.size := by
      rw [UInt64.zero_add, UInt64.toNat_ofNat']
    refine ⟨visits, hjobs, hvisits, ?_, ?_, ?_, ?_⟩
    all_goals
      rw [hcounts]
      exact hzero _
  · intro position batch part hget before state dialogue processed failure? visited after
    obtain ⟨answered, failed, hvisited, hrequests, hflag⟩ :=
      visit_counts config.codecSend hget before peer state
    have hafter : after = before.plus { parts := 1, failed, answered } :=
      congrArg Prod.snd hvisited
    refine ⟨answered, failed, hrequests, hafter, congrArg Prod.fst hvisited, hflag, ?_⟩
    intro hfits
    rw [hafter]
    exact hflag.trans (lt_add_ofNat_iff hfits).symm

end Stage
end Sidecar
