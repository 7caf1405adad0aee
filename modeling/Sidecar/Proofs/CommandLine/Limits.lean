import Sidecar.Proofs.CommandLine.Messages
import Sidecar.Proofs.Session.Deadlines
import Sidecar.Proofs.Stream.Growth

/-!
# The limits of a run

A run sets bytes aside for a batch before its first message, lets the buffers of its child grow, and
computes when it stops waiting. `InRange` says that all this is in range, whatever the messages are
and the child does. With a valid configuration the deadlines are; but nothing bounds the size of a
batch and that of a buffer as it would have to (`inRange_iff`).
-/

namespace Sidecar.CommandLine

/-- Whatever is computed with sizes and moments in a run is in range. -/
structure InRange (batchSize : UInt64) (c : Config) : Prop where
  /-- There is room for a batch. -/
  reserved : (Pump.reserve? batchSize.toNat).isSome
  /-- The buffer of a child's output grows in range. -/
  output : Buffered.Contained c.codecRecv c.maxBuffer.toNat
  /-- So does the buffer of its errors. -/
  errors : Buffered.Contained .lines c.maxBuffer.toNat
  timed : c.KeepsTime

variable {o : RunOptions} {c : Config} {env : Environment}

/-- A run has a valid configuration. -/
theorem RunOptions.validate_of_resolve (h : o.resolve env = .ok c) : c.validate = .ok () := by
  rw [resolve] at h
  split at h
  · next path _ =>
    cases hfile : Config.ofFile env.files env.dir path with
    | error failure =>
      rw [hfile] at h
      cases h
    | ok chosen =>
      rw [hfile] at h
      exact Config.validate_of_map h
  · exact Config.validate_of_map h

/-- There is room for a batch up to the number of slots that can be set aside at once. -/
theorem reserve?_isSome_iff (batchSize : UInt64) :
    (Pump.reserve? batchSize.toNat).isSome ↔ batchSize ≤ 384307168202282325 := by
  have hword : (384307168202282325 : UInt64).toNat = 384307168202282325 := rfl
  rw [UInt64.le_iff_toNat_le, hword]
  unfold Pump.reserve? Pump.slotSize Pump.maxRoom
  split
  · simp only [Option.isSome_some, true_iff]
    omega
  · simp only [Option.isSome_none, Bool.false_eq_true, false_iff]
    omega

/-- A buffer is limited to 2^62 bytes just if the word of its limit is. -/
theorem maxBuffer_le_iff (c : Config) :
    c.maxBuffer.toNat ≤ Buffered.growthEnd ↔ c.maxBuffer ≤ 4611686018427387904 := by
  rw [UInt64.le_iff_toNat_le]
  rfl

/-- A run that has no room for a batch panics before it reads a message, whatever the numbers are in
the report of that. -/
theorem RunOptions.execute_of_reserve? {input : Bytes} {bytes : Except IoFault Bytes}
    {session : Session} (hconfig : o.resolve env = .ok c)
    (hinput : o.openInput env input = .ok bytes) (hsession : Session.create c env = .ok session)
    (hroom : Pump.reserve? o.batchSize.toNat = none) (runtime : Runtime) :
    o.execute env input runtime = .panicked runtime "capacity overflow" := by
  have hne : o.batchSize ≠ 0 := by
    intro hzero
    rw [hzero] at hroom
    cases hroom
  simp only [execute, if_neg hne, hconfig, hinput, hsession, hroom]

/-- With a valid configuration all that a run computes is in range just if its batches have at most
384307168202282325 messages and its buffers at most 2^62 bytes: the one is needed for the room of a
batch, the other for the buffer of a child's errors, and the deadlines are in range anyway. A run
has a valid configuration, and with larger batches it panics once everything is at hand for it. -/
theorem inRange_iff (hvalid : c.validate = .ok ()) (batchSize : UInt64) :
    (InRange batchSize c ↔
      batchSize ≤ 384307168202282325 ∧ c.maxBuffer ≤ 4611686018427387904) ∧
    ((Pump.reserve? batchSize.toNat).isSome ↔ batchSize ≤ 384307168202282325) ∧
    (Buffered.Contained .lines c.maxBuffer.toNat ↔ c.maxBuffer ≤ 4611686018427387904) ∧
    c.KeepsTime ∧
    ∀ (o : RunOptions) (env : Environment) (d : Config), o.resolve env = .ok d →
      d.validate = .ok () ∧
      ∀ (input : Bytes) (bytes : Except IoFault Bytes) (session : Session) (runtime : Runtime),
        o.openInput env input = .ok bytes → Session.create d env = .ok session →
        384307168202282325 < o.batchSize →
        o.execute env input runtime = .panicked runtime "capacity overflow" := by
  have hreserved := reserve?_isSome_iff batchSize
  have hlimit := maxBuffer_le_iff c
  have herrors : Buffered.Contained .lines c.maxBuffer.toNat ↔ _ :=
    Buffered.contained_lines_iff.trans hlimit
  have htimed := Config.keepsTime hvalid
  refine ⟨⟨fun h ↦ ⟨hreserved.mp h.reserved, herrors.mp h.errors⟩, ?_⟩, hreserved, herrors,
    htimed, ?_⟩
  · rintro ⟨hsize, hle⟩
    exact ⟨hreserved.mpr hsize, Buffered.contained_of_le (hlimit.mpr hle) _, herrors.mpr hle,
      htimed⟩
  · intro o env d hconfig
    refine ⟨o.validate_of_resolve hconfig, ?_⟩
    intro input bytes session runtime hinput hsession hlarge
    apply o.execute_of_reserve? hconfig hinput hsession
    rw [← Option.not_isSome_iff_eq_none, reserve?_isSome_iff]
    exact UInt64.not_le.mpr hlarge

/-- The largest batches for which there is room are in range with the default configuration, and
with one message more a run of the command on the shelf panics. -/
theorem inRange_default :
    Config.validate {} = .ok () ∧ InRange 384307168202282325 {} ∧
      ∃ session, RunOptions.resolve { batchSize := 384307168202282326 } shelf = .ok {} ∧
        Session.create {} shelf = .ok session ∧
        RunOptions.execute { batchSize := 384307168202282326 } shelf [0x61, 0x0a] =
          .panicked {} "capacity overflow" := by
  have hranges := inRange_iff Config.validate_default 384307168202282325
  have hresolve := RunOptions.resolve_default 384307168202282326 false shelf
  obtain ⟨session, hsession⟩ := RunOptions.create_shelf
  refine ⟨Config.validate_default, hranges.1.mpr (by decide), session, hresolve, hsession, ?_⟩
  apply (hranges.2.2.2.2 _ shelf {} hresolve).2 [0x61, 0x0a] (.ok [0x61, 0x0a]) session {}
  · rfl
  · exact hsession
  · decide

/-- A command line may ask for batches that are out of range, and the run panics; and a
configuration may be valid with a buffer that is. -/
theorem not_inRange_of_greatest :
    (Command.ofArguments? ["run", "--batch-size", "18446744073709551615"] =
        some (.run { batchSize := 18446744073709551615 }) ∧
      RunOptions.resolve { batchSize := 18446744073709551615 } shelf = .ok {} ∧
      Config.validate {} = .ok () ∧ ¬ InRange 18446744073709551615 {} ∧
      RunOptions.execute { batchSize := 18446744073709551615 } shelf [0x61, 0x0a] =
        .panicked {} "capacity overflow") ∧
    Config.validate { maxBuffer := 18446744073709551615 } = .ok () ∧
      ¬ InRange 1 { maxBuffer := 18446744073709551615 } := by
  have hresolve := RunOptions.resolve_default 18446744073709551615 false shelf
  obtain ⟨session, hsession⟩ := RunOptions.create_shelf
  refine ⟨⟨by decide +kernel, hresolve, Config.validate_default, fun h ↦ ?_, ?_⟩, ?_, fun h ↦ ?_⟩
  · exact absurd ((reserve?_isSome_iff _).mp h.reserved) (by decide)
  · exact RunOptions.execute_of_reserve? hresolve rfl hsession (by decide) {}
  · rw [Config.validate_eq_ok_iff]
    decide +kernel
  · have hle := (maxBuffer_le_iff _).mp (Buffered.contained_lines_iff.mp h.errors)
    exact absurd hle (by decide)

end Sidecar.CommandLine
