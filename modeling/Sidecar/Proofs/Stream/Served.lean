import Sidecar.Stream.Source

/-!
# What a source serves

A script lays down every read of a source, and what matters to a reader is less: the bytes that are
served before the stream ends (`stream`), and the failure that ends it, if it does not just end
(`ending`). Interrupted reads leave no trace in either. `read_cases` says how one read takes its
part of them.
-/

namespace Sidecar.Source

/-- The events to come, what is left of the present one first. -/
def pending (s : Source) : List Event :=
  if s.current = [] then s.script else .serve s.current :: s.script

/-- The bytes that events serve. A read of nothing ends them, whatever comes after it. -/
def served (cap : Option Nat) : List Event → Bytes
  | [] => []
  | .serve bytes :: events =>
    if bytes = [] ∨ cap = some 0 then [] else bytes ++ served cap events
  | .fail fault :: events => if fault.kind = .interrupted then served cap events else []

/-- The failure that ends what events serve, if one does. -/
def failure (cap : Option Nat) : List Event → Option IoFault
  | [] => none
  | .serve bytes :: events => if bytes = [] ∨ cap = some 0 then none else failure cap events
  | .fail fault :: events =>
    if fault.kind = .interrupted then failure cap events else some fault

/-- The bytes that a source serves before its stream ends. -/
def stream (s : Source) : Bytes := served s.cap s.pending

/-- The failure that ends the stream of a source, if it does not just end. -/
def ending (s : Source) : Option IoFault := failure s.cap s.pending

/-- What one read does to the bytes to come. -/
inductive Reads (s : Source) (offered : Nat) : Except IoFault Bytes → Source → Prop where
  /-- The next bytes are handed over, at most as many as the slice takes. -/
  | bytes {got : Bytes} {s' : Source} (hne : got ≠ []) (hle : got.length ≤ offered)
      (hstream : s.stream = got ++ s'.stream) (hending : s'.ending = s.ending) :
      Reads s offered (.ok got) s'
  /-- The stream ends. -/
  | ended {s' : Source} (hstream : s.stream = []) (hending : s.ending = none) :
      Reads s offered (.ok []) s'
  /-- The read is interrupted and nothing is lost. -/
  | interrupted {fault : IoFault} {s' : Source} (hkind : fault.kind = .interrupted)
      (hstream : s'.stream = s.stream) (hending : s'.ending = s.ending) :
      Reads s offered (.error fault) s'
  /-- The stream fails. -/
  | failed {fault : IoFault} {s' : Source} (hkind : fault.kind ≠ .interrupted)
      (hstream : s.stream = []) (hending : s.ending = some fault) :
      Reads s offered (.error fault) s'

/-- Unless no read yields anything, what is left of the present event is served first. -/
theorem stream_of_cap {s : Source} (hcap : s.cap ≠ some 0) :
    s.stream = s.current ++ served s.cap s.script := by
  unfold stream pending
  split
  · next hc => rw [hc, List.nil_append]
  · next hc => simp only [served, hc, hcap, or_self, if_false]

/-- What is left of the present event does not decide how the stream ends. -/
theorem ending_of_cap {s : Source} (hcap : s.cap ≠ some 0) :
    s.ending = failure s.cap s.script := by
  unfold ending pending
  split
  · rfl
  · next hc => simp only [failure, hc, hcap, or_self, if_false]

private theorem reads_serveFrom {s : Source} {offered : Nat} {bytes : Bytes}
    {script : List Event} (ho : 0 < offered) (offers : List Nat)
    (hpending : s.pending = .serve bytes :: script) :
    Reads s offered (.ok ({ s with offers }.serveFrom offered bytes script).1)
      ({ s with offers }.serveFrom offered bytes script).2 := by
  by_cases hnone : bytes = [] ∨ s.cap = some 0
  · have hgot : ({ s with offers }.serveFrom offered bytes script).1 = [] := by
      rcases hnone with rfl | hcap
      · simp [serveFrom]
      · simp [serveFrom, yield, hcap]
    rw [hgot]
    refine .ended ?_ ?_
    · simp only [stream, hpending, served, if_pos hnone]
    · simp only [ending, hpending, failure, if_pos hnone]
  · have hbytes : bytes ≠ [] := fun h ↦ hnone (.inl h)
    have hcap : s.cap ≠ some 0 := fun h ↦ hnone (.inr h)
    have hlength : 0 < bytes.length := List.length_pos_iff.mpr hbytes
    have hyield : 0 < s.yield offered bytes.length := by
      cases hc : s.cap with
      | none => simp only [yield, hc, Option.getD_none]; omega
      | some n =>
        have hn : n ≠ 0 := fun h ↦ hcap (by rw [hc, h])
        simp only [yield, hc, Option.getD_some]
        omega
    have hle : s.yield offered bytes.length ≤ offered := by
      unfold yield
      omega
    refine .bytes ?_ ?_ ?_ ?_
    · intro hgot
      have := congrArg List.length hgot
      simp only [serveFrom, List.length_take, List.length_nil, yield] at this hyield
      omega
    · exact Nat.le_trans (List.length_take_le ..) hle
    · have hrest := stream_of_cap (s := ({ s with offers }.serveFrom offered bytes script).2) hcap
      rw [hrest]
      simp only [stream, hpending, served, if_neg hnone, serveFrom, ← List.append_assoc,
        List.take_append_drop]
    · have hrest := ending_of_cap (s := ({ s with offers }.serveFrom offered bytes script).2) hcap
      rw [hrest]
      simp only [ending, hpending, failure, if_neg hnone, serveFrom]

/-- What a read does. -/
theorem reads_read (s : Source) {offered : Nat} (ho : 0 < offered) :
    Reads s offered (s.read offered).1 (s.read offered).2 := by
  obtain ⟨cap, current, script, offers⟩ := s
  cases current with
  | cons b rest => exact reads_serveFrom ho _ rfl
  | nil =>
    cases script with
    | nil => exact .ended rfl rfl
    | cons event script =>
      cases event with
      | serve bytes => exact reads_serveFrom ho _ rfl
      | fail fault =>
        by_cases hkind : fault.kind = .interrupted
        · refine .interrupted hkind ?_ ?_
          · simp [read, stream, pending, served, hkind]
          · simp [read, ending, pending, failure, hkind]
        · refine .failed hkind ?_ ?_
          · simp [stream, pending, served, hkind]
          · simp [ending, pending, failure, hkind]

end Sidecar.Source
