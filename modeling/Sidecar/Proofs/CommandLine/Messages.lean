import Sidecar.Proofs.CommandLine.Batching
import Sidecar.Proofs.CommandLine.Checking
import Sidecar.Proofs.Config.Windows
import Sidecar.Proofs.Stage.Copied
import Sidecar.Proofs.Stage.Counting

/-!
# Every message is delivered once

A run neither loses, repeats nor reorders a message. The messages are the lines of the input
(`messages_terminated`), all batches hold as many of them as they should but the last, which may
hold fewer (`length_of_mem_groups`), and they hold them in order (`flatten_groups`). The stage is
called for these batches, one after the other (`run_inTurn`), and what it returns is written part by
part, with the number of the message to every complaint (`foldl_addBatch`).
-/

namespace Sidecar

namespace Pump

open Stage (Job Entry inTurn)

/-! ## Messages -/

/-- An input in which the last line is ended as well. -/
def terminated (input : Bytes) : Bytes :=
  if input = [] ∨ input.getLast? = some Bytes.newline then input else input ++ [Bytes.newline]

/-- Pieces that each stand before a newline are joined, and a newline stands behind them. -/
theorem flatMap_newline {pieces : List Bytes} (hne : pieces ≠ []) :
    pieces.flatMap (· ++ [Bytes.newline]) = Bytes.joinSegments pieces ++ [Bytes.newline] := by
  obtain ⟨front, last, rfl⟩ := (List.eq_nil_or_concat' pieces).resolve_left hne
  rw [List.flatMap_append, List.flatMap_singleton, Bytes.joinSegments_eq_unlines_append,
    Bytes.unlines, List.append_assoc]

/-- The messages are the lines of the input, in order: each stands before a newline, but for the
last one, which may stand before the end. -/
theorem messages_terminated (input : Bytes) :
    (messages input).flatMap (· ++ [Bytes.newline]) = terminated input := by
  have hjoin := Bytes.joinSegments_segments input
  by_cases hlast : (Bytes.segments input).getLast? = some []
  · obtain ⟨front, hcut⟩ := List.getLast?_eq_some_iff.mp hlast
    have hmessages : messages input = front := by
      rw [messages, if_pos hlast, hcut, List.dropLast_concat]
    rw [hcut] at hjoin
    rw [hmessages]
    by_cases hfront : front = []
    · subst hfront
      rw [← hjoin]
      rfl
    · rw [Bytes.joinSegments_concat hfront] at hjoin
      have hends : input.getLast? = some Bytes.newline := by
        rw [← hjoin]
        exact List.getLast?_concat
      rw [flatMap_newline hfront, hjoin, terminated, if_pos (.inr hends)]
  · have hmessages : messages input = Bytes.segments input := if_neg hlast
    have hne : input ≠ [] := by
      rintro rfl
      exact hlast rfl
    have hends : input.getLast? ≠ some Bytes.newline := by
      intro hends
      apply hlast
      rw [(Codec.segments_of_newline hends).1]
      exact List.getLast?_concat
    rw [hmessages, flatMap_newline (Bytes.segments_ne_nil input), hjoin, terminated, if_neg]
    rintro (h | h)
    · exact hne h
    · exact hends h

/-- No message goes on after a newline. -/
theorem newline_notMem_of_mem_messages {input message : Bytes} (h : message ∈ messages input) :
    Bytes.newline ∉ message := by
  have hmem : message ∈ Bytes.segments input := by
    rw [messages] at h
    split at h
    · exact List.mem_of_mem_dropLast h
    · exact h
  exact Bytes.newline_notMem_of_mem_segments hmem

/-! ## Batches of messages -/

section

variable {α : Type} {size : Nat}

/-- A group that is full stands before the groups of the rest. -/
theorem groups_append {full : List α} (hsize : 1 ≤ size) (hfull : full.length = size)
    (rest : List α) : groups size (full ++ rest) = full :: groups size rest := by
  cases full with
  | nil =>
    rw [List.length_nil] at hfull
    omega
  | cons m front =>
    have hfront : size - 1 = front.length := by
      rw [List.length_cons] at hfull
      omega
    rw [List.cons_append, groups, hfront, List.take_left, List.drop_left]

/-- So few messages are one group. -/
theorem groups_of_length_le {few : List α} (hne : few ≠ []) (hfew : few.length ≤ size) :
    groups size few = [few] := by
  cases few with
  | nil => exact absurd rfl hne
  | cons m rest =>
    have hrest : rest.length ≤ size - 1 := by
      rw [List.length_cons] at hfew
      omega
    rw [groups, List.take_of_length_le hrest, List.drop_of_length_le hrest, groups]

/-- A group is full, or it is the last one and not empty. -/
theorem length_of_mem_groups (hsize : 1 ≤ size) (ms : List α) :
    (∀ g ∈ (groups size ms).dropLast, g.length = size) ∧
      ∀ g ∈ groups size ms, 1 ≤ g.length ∧ g.length ≤ size := by
  induction ms using groups.induct size with
  | case1 =>
    rw [groups]
    simp
  | case2 m rest ih =>
    have hfirst : (m :: rest.take (size - 1)).length = min (size - 1) rest.length + 1 := by
      rw [List.length_cons, List.length_take]
    rw [groups]
    constructor
    · intro g hg
      by_cases hmore : rest.drop (size - 1) = []
      · rw [hmore, groups] at hg
        simp at hg
      · have hne : groups size (rest.drop (size - 1)) ≠ [] := by
          intro hnil
          have hflat := flatten_groups size (rest.drop (size - 1))
          rw [hnil] at hflat
          exact hmore hflat.symm
        rw [List.dropLast_cons_of_ne_nil hne, List.mem_cons] at hg
        obtain rfl | hg := hg
        · have hlong := List.drop_eq_nil_iff.not.mp hmore
          omega
        · exact ih.1 g hg
    · intro g hg
      rw [List.mem_cons] at hg
      obtain rfl | hg := hg
      · omega
      · exact ih.2 g hg

end

/-- Gathers lines into batches. A batch goes to the stage as soon as it is full, and what is left
goes to it at the end. -/
def gather (config : Config) (size : Nat) :
    List Bytes → List Bytes → Tally → Report → Dialogue (Report × Tally)
  | [], pending, tally, report =>
    if pending = [] then .done (report, tally) else run config [pending] tally report
  | line :: rest, pending, tally, report =>
    let pending := pending ++ [line]
    if pending.length = size then do
      let (report, tally) ← run config [pending] tally report
      gather config size rest [] tally report
    else gather config size rest pending tally report

/-- A run over a group and others is a run over the group and then over the others. -/
theorem run_cons_eq_bind (config : Config) (group : List Bytes) (rest : List (List Bytes))
    (tally : Tally) (report : Report) :
    run config (group :: rest) tally report =
      (run config [group] tally report).bind fun (report, tally) ↦
        run config rest tally report := by
  simp only [run, Dialogue.bind_eq, Dialogue.bind_assoc, Dialogue.done_bind]

/-- Gathering lines is a run over groups of them. -/
theorem gather_eq_run (config : Config) {size : Nat} (lines pending : List Bytes)
    (hpending : pending.length < size) (tally : Tally) (report : Report) :
    gather config size lines pending tally report =
      run config (groups size (pending ++ lines)) tally report := by
  induction lines generalizing pending tally report with
  | nil =>
    rw [gather, List.append_nil]
    split
    · next hnil =>
      rw [hnil, groups, run]
    · next hne => rw [groups_of_length_le hne (by omega)]
  | cons line rest ih =>
    have hassoc : pending ++ line :: rest = pending ++ [line] ++ rest := by simp
    rw [gather, hassoc]
    split
    · next hfull =>
      have hrest (tally : Tally) (report : Report) :
          gather config size rest [] tally report = run config (groups size rest) tally report :=
        ih [] (Nat.zero_lt_of_lt hpending) tally report
      rw [groups_append (Nat.one_le_of_lt hpending) hfull,
        run_cons_eq_bind config _ (groups size rest), Dialogue.bind_eq]
      simp only [hrest]
    · next hnot =>
      apply ih
      rw [List.length_append, List.length_singleton] at hnot ⊢
      omega

/-- The messages of an input are gathered line by line. -/
theorem pump_eq_gather (config : Config) {size : Nat} (hsize : 1 ≤ size) (input : Bytes) :
    pump config size input = gather config size (messages input) [] {} {} := by
  rw [gather_eq_run config (messages input) [] hsize, List.nil_append, pump]

/-! ## Calls -/

/-- The call that a group of messages makes. -/
def callFor (group : List Bytes) : Job := ⟨0, Batch.ofPayloads group⟩

/-- A run calls the stage for its groups, one after the other, and writes what becomes of them. -/
theorem run_inTurn (config : Config) {σ : Type} (peer : Request → σ → Reply × σ)
    (gs : List (List Bytes)) (tally : Tally) (report : Report) (state : σ) :
    let calls := inTurn config peer (gs.map callFor) tally state
    let dialogue := run config gs tally report
    dialogue.run peer state =
      (((calls.1.map (·.result)).foldl Report.addBatch report, calls.2.1), calls.2.2) ∧
      dialogue.transcript peer state = calls.1.flatMap (·.talk) := by
  induction gs generalizing tally report state with
  | nil => exact ⟨rfl, rfl⟩
  | cons group rest ih =>
    have hfirst := Dialogue.run_bind peer (Stage.process config (Batch.ofPayloads group) tally)
      (fun result ↦ run config rest result.2 (report.addBatch result.1)) state
    have htalk := Dialogue.transcript_bind peer
      (Stage.process config (Batch.ofPayloads group) tally)
      (fun result ↦ run config rest result.2 (report.addBatch result.1)) state
    intro calls dialogue
    obtain ⟨hrun, hrest⟩ := ih
      ((Stage.process config (Batch.ofPayloads group) tally).run peer state).1.2
      (report.addBatch ((Stage.process config (Batch.ofPayloads group) tally).run peer state).1.1)
      ((Stage.process config (Batch.ofPayloads group) tally).run peer state).2
    constructor
    · exact hfirst.trans hrun
    · rw [hrest] at htalk
      exact htalk

/-! ## What is written -/

/-- What is complained of in the message of a number. -/
def complaint (part : Part) (number : Nat) : String :=
  match part.error with
  | some text => s!"message {number}: {text}\n"
  | none => ""

namespace Report

/-- Parts are written in order, each on a line of its own, and failures under their numbers. -/
theorem foldl_addPart (parts : List Part) (r : Report) :
    parts.foldl addPart r =
      { r with
        output := r.output ++ parts.flatMap (·.data ++ [Bytes.newline])
        complaints := r.complaints ++
          String.join ((parts.zipIdx (r.messages + 1)).map fun p ↦ complaint p.1 p.2)
        messages := r.messages + parts.length
        failed := r.failed + parts.countP (·.isFailed) } := by
  induction parts generalizing r with
  | nil => simp
  | cons part rest ih =>
    have hfirst : r.addPart part =
        { r with
          output := r.output ++ (part.data ++ [Bytes.newline])
          complaints := r.complaints ++ complaint part (r.messages + 1)
          messages := r.messages + 1
          failed := r.failed + if part.isFailed then 1 else 0 } := by
      rw [addPart, complaint, Part.isFailed]
      cases part.error <;> simp
    rw [List.foldl_cons, ih, hfirst]
    simp only [List.flatMap_cons, List.zipIdx_cons, List.map_cons, String.join_cons,
      List.countP_cons, List.length_cons, List.append_assoc, String.append_assoc,
      Nat.add_comm, Nat.add_left_comm]

/-- Batches are written in order. -/
theorem foldl_addBatch (batches : List Batch) (r : Report) :
    let parts := batches.flatMap (·.parts)
    batches.foldl addBatch r =
      { output := r.output ++ parts.flatMap (·.data ++ [Bytes.newline])
        complaints := r.complaints ++
          String.join ((parts.zipIdx (r.messages + 1)).map fun p ↦ complaint p.1 p.2)
        messages := r.messages + parts.length
        failed := r.failed + parts.countP (·.isFailed)
        batches := r.batches + batches.length } := by
  induction batches generalizing r with
  | nil => simp
  | cons batch rest ih =>
    rw [List.foldl_cons, ih, addBatch, foldl_addPart]
    simp only [List.flatMap_cons, List.flatMap_append, List.zipIdx_append, List.map_append,
      String.join_append, List.countP_append, List.length_append, List.length_cons,
      List.append_assoc, String.append_assoc, Nat.add_assoc, Nat.add_comm, Nat.add_left_comm]

end Report

/-! ## Whole runs -/

/-- What a run that processes an input comes to, told by its calls to the stage. -/
structure Delivered {σ : Type} (config : Config) (size : Nat) (input : Bytes)
    (peer : Request → σ → Reply × σ) (state : σ) (calls : List Entry) (report : Report) : Prop where
  /-- The messages are the lines of the input, in order. A newline at the end begins none. -/
  lines : (messages input).flatMap (· ++ [Bytes.newline]) = terminated input
  newline_notMem : ∀ message ∈ messages input, Bytes.newline ∉ message
  /-- The batches hold the messages in order. -/
  whole : (groups size (messages input)).flatten = messages input
  full : ∀ g ∈ (groups size (messages input)).dropLast, g.length = size
  last : ∀ g ∈ groups size (messages input), 1 ≤ g.length ∧ g.length ≤ size
  /-- A batch goes to the stage once it is full, and what is left at the end. -/
  gathered : pump config size input = gather config size (messages input) [] {} {}
  /-- The stage is called for each batch once, in order, and for nothing else. -/
  jobs : calls.map (·.job) = (groups size (messages input)).map callFor
  called : calls = (inTurn config peer ((groups size (messages input)).map callFor) {} state).1
  talk : (pump config size input).transcript peer state = calls.flatMap (·.talk)
  /-- A part comes back for each message. -/
  size_result : ∀ call ∈ calls, call.result.size = call.job.batch.size
  /-- What comes back is written in order, and failures under the numbers of their messages. -/
  report :
    let parts := calls.flatMap (·.result.parts)
    report =
      { output := parts.flatMap (·.data ++ [Bytes.newline])
        complaints := String.join ((parts.zipIdx 1).map fun p ↦ complaint p.1 p.2)
        messages := (messages input).length
        failed := parts.countP (·.isFailed)
        batches := (groups size (messages input)).length }

/-- Calls give back as many parts as there are messages in their groups. -/
theorem length_parts {calls : List Entry} {gs : List (List Bytes)}
    (hjobs : calls.map (·.job) = gs.map callFor)
    (hsize : ∀ call ∈ calls, call.result.size = call.job.batch.size) :
    (calls.flatMap (·.result.parts)).length = gs.flatten.length := by
  calc (calls.flatMap (·.result.parts)).length
    _ = (calls.map (·.result.size)).sum := List.length_flatMap
    _ = ((calls.map (·.job)).map (·.batch.size)).sum := by
      rw [List.map_map, List.map_congr_left hsize]
      rfl
    _ = (gs.map List.length).sum := by
      rw [hjobs, List.map_map]
      congr 2
      funext g
      exact List.length_map _
    _ = gs.flatten.length := List.length_flatten.symm

/-- A run delivers its messages. -/
theorem delivered (config : Config) {size : Nat} (hsize : 1 ≤ size) (input : Bytes) {σ : Type}
    (peer : Request → σ → Reply × σ) (state : σ) :
    ∃ calls : List Entry, Delivered config size input peer state calls
      ((pump config size input).run peer state).1.1 := by
  obtain ⟨hrun, htalk⟩ :=
    run_inTurn config peer (groups size (messages input)) {} {} state
  obtain ⟨visits, hjobs, hvisits, -⟩ :=
    Stage.inTurn_counts config peer ((groups size (messages input)).map callFor) {} state
  obtain ⟨hfull, hlast⟩ := length_of_mem_groups hsize (messages input)
  have hreturned := Stage.size_result hvisits
  have hlength := length_parts hjobs hreturned
  have hcalls := congrArg List.length hjobs
  rw [flatten_groups] at hlength
  rw [List.length_map, List.length_map] at hcalls
  refine ⟨_, messages_terminated input, fun _ ↦ newline_notMem_of_mem_messages,
    flatten_groups size (messages input), hfull, hlast, pump_eq_gather config hsize input, hjobs,
    rfl, htalk, hreturned, ?_⟩
  rw [pump, hrun, Report.foldl_addBatch]
  simp only [List.flatMap_map, List.length_map, hlength, hcalls, List.nil_append, Nat.zero_add,
    String.empty_append]

end Pump

/-! ## The command -/

namespace CommandLine.RunOptions

/-- A run fails where it is told to and some message has failed. -/
theorem code_conclude (o : RunOptions) (report : Pump.Report) :
    (o.conclude report).code ≠ 0 ↔ o.failsOnError = true ∧ 0 < report.failed := by
  rw [conclude, Nat.pos_iff_ne_zero]
  split
  · next h => simpa using h
  · next h => simpa using h

/-- All output of a run is that of its messages. -/
theorem output_conclude (o : RunOptions) (report : Pump.Report) :
    (o.conclude report).output = report.output := by
  rw [conclude]
  split <;> rfl

/-- A run with batches of at least one message delivers its messages: none is lost, written twice
or out of order, whatever the child replies. Where failures are to make it fail, it fails exactly
when some message has failed. The command is such a run once everything is at hand for it. -/
theorem messages_delivered (o : RunOptions) (hsize : 1 ≤ o.batchSize) :
    (∀ (config : Config) (input : Bytes) {σ : Type} (peer : Request → σ → Reply × σ) (state : σ),
      let report := ((Pump.pump config o.batchSize.toNat input).run peer state).1.1
      (∃ calls, Pump.Delivered config o.batchSize.toNat input peer state calls report) ∧
        (o.conclude report).output = report.output ∧
        ((o.conclude report).code ≠ 0 ↔ o.failsOnError = true ∧ 0 < report.failed)) ∧
    ∀ (env : Environment) (raw : Bytes) (runtime : Runtime) (config : Config) (input : Bytes)
      (session : Session),
      o.resolve env = .ok config → o.openInput env raw = .ok (.ok input) →
      Session.create config env = .ok session → (Pump.reserve? o.batchSize.toNat).isSome →
      o.execute env raw runtime = o.conclude
        ((Pump.pump config o.batchSize.toNat input).run (fun r s ↦ s.exchange r.frame)
          session).1.1 := by
  constructor
  · intro config input σ peer state report
    have hpositive : 1 ≤ o.batchSize.toNat := hsize
    exact ⟨Pump.delivered config hpositive input peer state, o.output_conclude report,
      o.code_conclude report⟩
  · intro env raw runtime config input session hconfig hinput hsession hroom
    have hne : o.batchSize ≠ 0 := by
      intro hzero
      rw [hzero] at hsize
      exact absurd hsize (by decide)
    obtain ⟨room, hroom⟩ := Option.isSome_iff_exists.mp hroom
    simp only [execute, if_neg hne, hconfig, hinput, hsession, hroom]

/-- Options that are not about the configuration leave it at its defaults. -/
theorem resolve_default (batchSize : UInt64) (failsOnError : Bool) (env : Environment) :
    resolve { batchSize, failsOnError } env = .ok {} := by
  have hchecked : resolve { batchSize, failsOnError } env =
      (Config.validate {}).bind fun _ ↦ .ok {} := by
    simp only [resolve]
    rfl
  rw [hchecked, Config.validate_default]
  rfl

/-- The command on the shelf can be spawned. -/
private theorem spawn_shelf {w : World} (hfiles : w.files = shelf.files) (cause : IoFault) :
    w.spawn shelf.dir "/cat" [] ≠ .error cause := by
  have hwalk := walk_shelf
  rw [← hfiles] at hwalk
  have htool : w.files.get? ["cat"] = some (.tool .cat) := by
    rw [hfiles]
    rfl
  simp only [World.spawn, World.interpreterDepth, World.load, List.any_nil, hwalk, htool]
  intro hfault
  cases hfault

/-- The default configuration has a session with the command on the shelf. -/
theorem create_shelf : ∃ session, Session.create {} shelf = .ok session := by
  have hprogram : Supervisor.program {} shelf = .ok "/cat" := by
    rw [Supervisor.program, Config.validate_default]
    exact resolveProgram_of_name rfl
  unfold Session.create
  rw [hprogram]
  simp only [bind, Except.bind]
  split
  · next hfault =>
    refine absurd hfault (spawn_shelf ?_ _)
    rfl
  · exact ⟨_, rfl⟩

/-- A child that repeats what it is sent, but for its second request, which fails. -/
private def parrot (request : Request) (count : Nat) : Reply × Nat :=
  (if count = 1 then .error .closed else .ok request.payload, count + 1)

/-- Three messages in batches of two, of which the second is empty and fails; and the same messages
with the command on the shelf. -/
theorem messages_delivered_for_three :
    let o : RunOptions := { batchSize := 2, failsOnError := true }
    let input : Bytes := [0x61, 0x0d, 0x0a, 0x0a, 0x62, 0x0a]
    let report := ((Pump.pump {} o.batchSize.toNat input).run parrot 0).1.1
    (1 ≤ o.batchSize ∧
      Pump.groups 2 (Pump.messages input) = [[[0x61, 0x0d], []], [[0x62]]] ∧
      (∃ calls, Pump.Delivered {} o.batchSize.toNat input parrot 0 calls report) ∧
      report.complaints = "message 2: subprocess is closed\n" ∧ report.failed = 1 ∧
      (o.conclude report).output = [0x61, 0x0d, 0x0a, 0x0a, 0x62, 0x0a] ∧
      (o.conclude report).code ≠ 0) ∧
    ∃ session, o.resolve shelf = .ok {} ∧ o.openInput shelf input = .ok (.ok input) ∧
      Session.create {} shelf = .ok session ∧ (Pump.reserve? o.batchSize.toNat).isSome ∧
      o.execute shelf input = o.conclude
        ((Pump.pump {} o.batchSize.toNat input).run (fun r s ↦ s.exchange r.frame) session).1.1 := by
  intro o input report
  have hsize : 1 ≤ o.batchSize := by decide
  have hgroups : Pump.groups 2 (Pump.messages input) = [[[0x61, 0x0d], []], [[0x62]]] := by cbv
  have hreport : report = ⟨[0x61, 0x0d, 0x0a, 0x0a, 0x62, 0x0a],
      "message 2: subprocess is closed\n", 3, 1, 2⟩ := by
    change ((Pump.run {} (Pump.groups 2 (Pump.messages input)) {} {}).run parrot 0).1.1 = _
    rw [hgroups]
    rfl
  have hdelivered := messages_delivered o hsize
  have hparrot := hdelivered.1 {} input parrot 0
  constructor
  · refine ⟨hsize, hgroups, hparrot.1, ?_, ?_, ?_, ?_⟩
    · rw [hreport]
    · rw [hreport]
    · exact hparrot.2.1.trans (congrArg (·.output) hreport)
    · apply hparrot.2.2.mpr
      constructor
      · rfl
      · change 0 < report.failed
        rw [hreport]
        decide
  · obtain ⟨session, hsession⟩ := create_shelf
    have hresolve : o.resolve shelf = .ok {} := resolve_default 2 true shelf
    have hroom : (Pump.reserve? o.batchSize.toNat).isSome := by decide
    exact ⟨session, hresolve, rfl, hsession, hroom,
      hdelivered.2 shelf input {} {} input session hresolve rfl hsession hroom⟩

end CommandLine.RunOptions
end Sidecar
