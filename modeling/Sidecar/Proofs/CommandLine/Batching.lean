import Sidecar.CommandLine.Run
import Sidecar.Proofs.Stage.Treatment

/-!
# The size of batches

When every part is selected, what a run writes and counts does not depend on where its messages
are cut into batches. `sweep` has no batches at all: it treats the messages one by one, and writes
what became of each before it treats the next. Pumping groups of messages matches the sweep over
all of them (`run_matches_sweep`), whatever the groups, since the child sees the same requests and
a report counts batches without ever reading the count.
-/

namespace Sidecar

namespace Pump

open Dialogue (Matches)
open Stage (treat treatAll)

/-! ## Groups -/

/-- Groups hold all messages, in order. -/
theorem flatten_groups {α : Type} (size : Nat) (ms : List α) : (groups size ms).flatten = ms := by
  induction ms using groups.induct size with
  | case1 => rw [groups, List.flatten_nil]
  | case2 m rest ih =>
    rw [groups, List.flatten_cons, ih, List.cons_append, List.take_append_drop]

/-! ## Reports -/

namespace Report

/-- A report without its number of batches. -/
def unbatched (r : Report) : Report := { r with batches := 0 }

/-- What is written of a part does not depend on the number of batches. -/
theorem unbatched_addPart {r r' : Report} (h : r.unbatched = r'.unbatched) (part : Part) :
    (r.addPart part).unbatched = (r'.addPart part).unbatched := by
  have hcommutes (r : Report) : (r.addPart part).unbatched = r.unbatched.addPart part := by
    simp only [addPart, unbatched]
    cases part.error <;> rfl
  rw [hcommutes, hcommutes, h]

end Report

/-- Two results of a run that agree but for their numbers of batches. -/
def Alike (x y : Report × Tally) : Prop :=
  x.1.unbatched = y.1.unbatched ∧ x.2.unbatched = y.2.unbatched

/-! ## Sweeps -/

/-- Treats parts in order, and writes what became of each at once. -/
def sweep (codec : Codec) : List Part → Tally → Report → Dialogue (Report × Tally)
  | [], tally, report => .done (report, tally)
  | part :: rest, tally, report => do
    let (part, tally) ← treat codec part tally
    sweep codec rest tally (report.addPart part)

/-- A sweep over two lists of parts is one sweep after the other. -/
theorem sweep_append (codec : Codec) (parts more : List Part) (tally : Tally) (report : Report) :
    sweep codec (parts ++ more) tally report =
      (sweep codec parts tally report).bind fun (report, tally) ↦
        sweep codec more tally report := by
  induction parts generalizing tally report with
  | nil => rfl
  | cons part rest ih =>
    simp only [List.cons_append, sweep, ih, Dialogue.bind_eq, Dialogue.bind_assoc]

/-- It does not matter whether parts are written one by one or all at the end. -/
theorem treatAll_then_write (codec : Codec) (parts : List Part) (tally : Tally)
    (report : Report) :
    ((treatAll codec parts tally).bind fun (parts, tally) ↦
      .done (parts.foldl Report.addPart report, tally)) = sweep codec parts tally report := by
  induction parts generalizing tally report with
  | nil => rfl
  | cons part rest ih =>
    simp only [treatAll, sweep, Dialogue.bind_eq, Dialogue.bind_assoc, Dialogue.done_bind,
      List.foldl_cons, ih]

/-- A sweep does not depend on the number of batches so far. -/
theorem sweep_matches (codec : Codec) (parts : List Part) {tally tally' : Tally}
    {report report' : Report} (h : Alike (report, tally) (report', tally')) :
    Matches Alike (sweep codec parts tally report) (sweep codec parts tally' report') := by
  induction parts generalizing tally tally' report report' with
  | nil => exact .done h
  | cons part rest ih =>
    refine (Stage.treat_matches codec part h.2).bind ?_
    rintro ⟨part, t⟩ ⟨_, t'⟩ ⟨rfl, ht⟩
    exact ih ⟨Report.unbatched_addPart h.1 part, ht⟩

/-! ## Runs -/

/-- Without a selection a run sweeps over a group and counts a batch. -/
theorem run_cons {config : Config} (hparts : config.parts = []) (group : List Bytes)
    (rest : List (List Bytes)) (tally : Tally) (report : Report) :
    run config (group :: rest) tally report =
      (sweep config.codecSend (Batch.ofPayloads group).parts tally report).bind
        fun (report, tally) ↦
          run config rest tally.countBatch { report with batches := report.batches + 1 } := by
  rw [← treatAll_then_write, run, show Batch.ofPayloads group = ⟨(Batch.ofPayloads group).parts⟩
    from rfl, Stage.process_of_all hparts]
  simp only [Dialogue.bind_eq, Dialogue.bind_assoc, Dialogue.done_bind]
  rfl

/-- A run over groups of messages matches a sweep over all of them. -/
theorem run_matches_sweep {config : Config} (hparts : config.parts = [])
    (gs : List (List Bytes)) {tally tally' : Tally} {report report' : Report}
    (h : Alike (report, tally) (report', tally')) :
    Matches Alike (run config gs tally report)
      (sweep config.codecSend (Batch.ofPayloads gs.flatten).parts tally' report') := by
  induction gs generalizing tally tally' report report' with
  | nil => exact .done h
  | cons group rest ih =>
    have hflat : (Batch.ofPayloads (group :: rest).flatten).parts =
        (Batch.ofPayloads group).parts ++ (Batch.ofPayloads rest.flatten).parts := by
      simp [Batch.ofPayloads]
    rw [hflat, sweep_append, run_cons hparts]
    refine (sweep_matches _ _ h).bind ?_
    rintro ⟨r, t⟩ ⟨r', t'⟩ ⟨hr, ht⟩
    exact ih ⟨hr, ht⟩

/-- Two sizes of batches give reports and tallies that agree but for the number of batches, and
the peer ends in the same state. -/
theorem pump_alike {config : Config} (hparts : config.parts = []) (input : Bytes)
    (size size' : Nat) {σ : Type} (peer : Request → σ → Reply × σ) (state : σ) :
    Alike ((pump config size input).run peer state).1 ((pump config size' input).run peer state).1 ∧
      ((pump config size input).run peer state).2 =
        ((pump config size' input).run peer state).2 := by
  have hstart : Alike ({}, {}) ({}, {}) := ⟨rfl, rfl⟩
  have hsweep (size : Nat) :=
    (run_matches_sweep hparts (groups size (messages input)) hstart).run peer state
  simp only [flatten_groups] at hsweep
  obtain ⟨⟨hreport, htally⟩, hstate⟩ := hsweep size
  obtain ⟨⟨hreport', htally'⟩, hstate'⟩ := hsweep size'
  exact ⟨⟨hreport.trans hreport'.symm, htally.trans htally'.symm⟩, hstate.trans hstate'.symm⟩

end Pump

/-! ## The command -/

namespace CommandLine.RunOptions

/-- What a run comes to does not depend on the number of its batches. -/
theorem conclude_of_unbatched (o : RunOptions) {r r' : Pump.Report}
    (h : r.unbatched = r'.unbatched) : o.conclude r = o.conclude r' := by
  change o.conclude r.unbatched = o.conclude r'.unbatched
  rw [h]

/-- Two sizes of batches make no difference to a command that selects every part. -/
theorem execute_with_batchSize (o : RunOptions) {size size' : UInt64} (hsize : 1 ≤ size)
    (hsize' : 1 ≤ size') (hroom : (Pump.reserve? size.toNat).isSome)
    (hroom' : (Pump.reserve? size'.toNat).isSome) (env : Environment) (input : Bytes)
    (runtime : Runtime) (hparts : ∀ config, o.resolve env = .ok config → config.parts = []) :
    { o with batchSize := size }.execute env input runtime =
      { o with batchSize := size' }.execute env input runtime := by
  have hne : size ≠ 0 := by rintro rfl; exact absurd hsize (by decide)
  have hne' : size' ≠ 0 := by rintro rfl; exact absurd hsize' (by decide)
  obtain ⟨room, hroom⟩ := Option.isSome_iff_exists.mp hroom
  obtain ⟨room', hroom'⟩ := Option.isSome_iff_exists.mp hroom'
  have hresolve (size : UInt64) : { o with batchSize := size }.resolve env = o.resolve env := rfl
  have hopen (size : UInt64) :
      { o with batchSize := size }.openInput env input = o.openInput env input := rfl
  simp only [execute, if_neg hne, if_neg hne', hroom, hroom', hresolve, hopen]
  split
  · rfl
  · rename_i config hconfig
    split
    · rfl
    · split
      · rfl
      · cases ‹Except IoFault Bytes› with
        | error fault => rfl
        | ok bytes =>
          exact conclude_of_unbatched o
            (Pump.pump_alike (hparts config hconfig) bytes _ _ _ _).1.1

/-- When every part is selected, two sizes of batches for which room can be set aside give the
same output, complaints and counts, against any child that answers by what it was asked so far, and
so a run comes to the same. -/
theorem batchSize_immaterial (o : RunOptions) {size size' : UInt64} (hsize : 1 ≤ size)
    (hsize' : 1 ≤ size') (hroom : (Pump.reserve? size.toNat).isSome)
    (hroom' : (Pump.reserve? size'.toNat).isSome) :
    (∀ (config : Config), config.parts = [] → ∀ (input : Bytes) {σ : Type}
      (peer : Request → σ → Reply × σ) (state : σ),
      let ((report, tally), last) := (Pump.pump config size.toNat input).run peer state
      let ((report', tally'), last') := (Pump.pump config size'.toNat input).run peer state
      report.output = report'.output ∧ report.complaints = report'.complaints ∧
        report.messages = report'.messages ∧ report.failed = report'.failed ∧
        tally.unbatched = tally'.unbatched ∧ last = last' ∧
        o.conclude report = o.conclude report') ∧
    ∀ (env : Environment) (input : Bytes) (runtime : Runtime),
      (∀ config, o.resolve env = .ok config → config.parts = []) →
      { o with batchSize := size }.execute env input runtime =
        { o with batchSize := size' }.execute env input runtime := by
  refine ⟨fun config hparts input σ peer state ↦ ?_, fun env input runtime ↦
    execute_with_batchSize o hsize hsize' hroom hroom' env input runtime⟩
  obtain ⟨⟨hreport, htally⟩, hlast⟩ :=
    Pump.pump_alike hparts input size.toNat size'.toNat peer state
  exact ⟨congrArg (·.output) hreport, congrArg (·.complaints) hreport,
    congrArg (·.messages) hreport, congrArg (·.failed) hreport, htally, hlast,
    conclude_of_unbatched o hreport⟩

/-- A child that says everything twice, but for its second request, which fails. -/
private def stutter (request : Request) (count : Nat) : Reply × Nat :=
  (if count = 1 then .error .closed else .ok (request.payload ++ request.payload), count + 1)

/-- Three messages, of which the second fails, one by one and in batches of two. -/
theorem batchSize_immaterial_for_three :
    let o : RunOptions := { failsOnError := true }
    let report (size : UInt64) : Pump.Report :=
      ((Pump.pump {} size.toNat [0x61, 0x0a, 0x62, 0x0a, 0x63]).run stutter 0).1.1
    let env : Environment := ⟨⟨[]⟩, "/", none⟩
    (report 1).batches = 3 ∧ (report 2).batches = 2 ∧
      o.conclude (report 1) = ⟨1, [0x61, 0x61, 0x0a, 0x62, 0x0a, 0x63, 0x63, 0x0a],
        "message 2: subprocess is closed\nError: 1 of 3 messages failed\n"⟩ ∧
      o.conclude (report 2) = o.conclude (report 1) ∧
      { o with batchSize := 2 }.execute env [] = { o with batchSize := 1 }.execute env [] := by
  have hpair : (1 : UInt64) ≤ 2 := by decide
  have hsingle : (1 : UInt64) ≤ 1 := by decide
  have halike := batchSize_immaterial { failsOnError := true } hpair hsingle (by decide) (by decide)
  have hsingly : Pump.groups 1 (Pump.messages [0x61, 0x0a, 0x62, 0x0a, 0x63]) =
      [[[0x61]], [[0x62]], [[0x63]]] := by cbv
  have hpairs : Pump.groups 2 (Pump.messages [0x61, 0x0a, 0x62, 0x0a, 0x63]) =
      [[[0x61], [0x62]], [[0x63]]] := by cbv
  refine ⟨?_, ?_, ?_, ?_, ?_⟩
  · simp only [Pump.pump, UInt64.toNat_one, hsingly]
    rfl
  · simp only [Pump.pump, UInt64.reduceToNat, hpairs]
    rfl
  · simp only [Pump.pump, UInt64.toNat_one, hsingly]
    rfl
  · exact (halike.1 {} rfl [0x61, 0x0a, 0x62, 0x0a, 0x63] stutter 0).2.2.2.2.2.2
  · refine halike.2 ⟨⟨[]⟩, "/", none⟩ [] {} fun config h ↦ ?_
    obtain rfl : ({} : Config) = config := Except.ok.inj h
    rfl

end CommandLine.RunOptions
end Sidecar
