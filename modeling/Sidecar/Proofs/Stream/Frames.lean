import Sidecar.Proofs.Stream.Outflow
import Sidecar.Proofs.Stream.RoundTrip

/-!
# Streams of frames

A frame is what a reader takes as one token. Of frames that were written one behind the other, some
bytes may be missing at the end: then the tokens are those of the frames that are there as a whole
(`tokens_of_prefix`), and nothing is wrong with the stream (`feed_decodes`).
-/

namespace Sidecar

/-- Bytes that make one token. -/
structure Frame where
  bytes : Bytes
  token : Bytes
  deriving DecidableEq, Repr

namespace Frame

/-- Whether a reader takes the bytes of a frame as its token. -/
structure IsRead (codec : Codec) (limit : Nat) (f : Frame) : Prop where
  fits : f.bytes.length ≤ limit
  splits : codec.split f.bytes false = .ok (some (f.bytes.length, f.token))

/-- The bytes of frames, one behind the other. -/
def wire (frames : List Frame) : Bytes := frames.flatMap (·.bytes)

/-- The tokens of frames. -/
def payloads (frames : List Frame) : List Bytes := frames.map (·.token)

@[simp] theorem wire_nil : wire [] = [] := rfl

@[simp] theorem wire_append (frames frames' : List Frame) :
    wire (frames ++ frames') = wire frames ++ wire frames' :=
  List.flatMap_append

@[simp] theorem payloads_nil : payloads [] = [] := rfl

@[simp] theorem payloads_append (frames frames' : List Frame) :
    payloads (frames ++ frames') = payloads frames ++ payloads frames' :=
  List.map_append

section

variable {codec : Codec} {limit : Nat} {f : Frame} {frames : List Frame} {bytes : Bytes}

/-- A frame of which bytes are missing is no token, and nothing is wrong with it. -/
theorem IsRead.split_of_lt (h : f.IsRead codec limit) (hbytes : bytes <+: f.bytes)
    (hlt : bytes.length < f.bytes.length) : codec.split bytes false = .ok none := by
  by_cases hnone : codec.split bytes false = .ok none
  · exact hnone
  · -- What is split off a part would be split off the frame.
    obtain ⟨more, hmore⟩ := hbytes
    have hsame := Codec.split_append hnone more
    rw [hmore, h.splits] at hsame
    have hle := (Codec.split_consumes hsame.symm).2
    omega

/-- Frames come before whatever follows them. -/
theorem decode_wire_append (hframes : ∀ f ∈ frames, f.IsRead codec limit) (ending : Option IoFault)
    (later : Bytes) : codec.decode limit ending (wire frames ++ later) =
      (payloads frames).map .ok ++ codec.decode limit ending later := by
  induction frames with
  | nil => rfl
  | cons f frames ih =>
    have hf := hframes f List.mem_cons_self
    have hrest := ih fun f' hf' ↦ hframes f' (List.mem_cons_of_mem f hf')
    calc codec.decode limit ending (wire (f :: frames) ++ later)
        = codec.decode limit ending (f.bytes ++ (wire frames ++ later)) := by
          rw [← List.append_assoc]
          rfl
      _ = .ok f.token :: codec.decode limit ending (wire frames ++ later) := by
          rw [Codec.decode_append_of_token hf.fits hf.splits, List.drop_length, List.nil_append]
      _ = (payloads (f :: frames)).map .ok ++ codec.decode limit ending later := by
          rw [hrest]
          rfl

/-- The first bytes of frames are those of some frames as a whole, and of a part of the next. -/
theorem whole_of_prefix (hframes : ∀ f ∈ frames, f.IsRead codec limit)
    (hbytes : bytes <+: wire frames) (hlimit : 0 < limit) :
    ∃ whole part, whole <+: frames ∧ bytes = wire whole ++ part ∧ part.length < limit ∧
      codec.split part false = .ok none := by
  induction frames generalizing bytes with
  | nil =>
    rw [List.prefix_nil.mp hbytes]
    exact ⟨[], [], List.nil_prefix, rfl, hlimit, Codec.split_nil codec false⟩
  | cons f frames ih =>
    have hf := hframes f List.mem_cons_self
    have hwire : wire (f :: frames) = f.bytes ++ wire frames := rfl
    rw [hwire] at hbytes
    by_cases hlt : bytes.length < f.bytes.length
    · have hpart : bytes <+: f.bytes :=
        List.prefix_of_prefix_length_le hbytes (List.prefix_append _ _) (Nat.le_of_lt hlt)
      exact ⟨[], bytes, List.nil_prefix, rfl, Nat.lt_of_lt_of_le hlt hf.fits,
        hf.split_of_lt hpart hlt⟩
    · have hfirst : f.bytes <+: bytes :=
        List.prefix_of_prefix_length_le (List.prefix_append _ _) hbytes (Nat.le_of_not_lt hlt)
      obtain ⟨rest, rfl⟩ := hfirst
      obtain ⟨whole, part, hwhole, rfl, hshort, hsplit⟩ :=
        ih (fun f' hf' ↦ hframes f' (List.mem_cons_of_mem f hf'))
          ((List.prefix_append_right_inj f.bytes).mp hbytes)
      refine ⟨f :: whole, part, (List.prefix_cons_inj f).mpr hwhole, ?_, hshort, hsplit⟩
      rw [← List.append_assoc]
      rfl

/-- How a stream of frames reads that fails before its last frame ends. -/
theorem decode_of_prefix (hframes : ∀ f ∈ frames, f.IsRead codec limit)
    (hbytes : bytes <+: wire frames) (hlimit : 0 < limit) :
    ∃ whole, whole <+: frames ∧ wire whole <+: bytes ∧ ∀ fault,
      codec.decode limit (some fault) bytes = (payloads whole).map .ok ++ [.error (.io fault)] := by
  obtain ⟨whole, part, hwhole, rfl, hshort, hsplit⟩ := whole_of_prefix hframes hbytes hlimit
  refine ⟨whole, hwhole, List.prefix_append _ _, fun fault ↦ ?_⟩
  rw [decode_wire_append fun f hf ↦ hframes f (hwhole.subset hf), Codec.decode_of_room hshort hsplit,
    Codec.conclude, if_neg (Nat.not_le_of_lt hshort)]

/-- The tokens of a stream of frames are those of the frames that are there as a whole. -/
theorem tokens_of_prefix (hframes : ∀ f ∈ frames, f.IsRead codec limit)
    (hbytes : bytes <+: wire frames) (hlimit : 0 < limit) :
    ∃ whole, whole <+: frames ∧ wire whole <+: bytes ∧
      codec.tokens limit false bytes = payloads whole := by
  obtain ⟨whole, hwhole, hwire, hdecode⟩ := decode_of_prefix hframes hbytes hlimit
  refine ⟨whole, hwhole, hwire, ?_⟩
  rw [Codec.tokens, if_neg Bool.false_ne_true, hdecode, Codec.filterMap_toOption_append]
  exact List.append_nil _

/-- The tokens of frames that are there as a whole. -/
theorem tokens_of_wire (hframes : ∀ f ∈ frames, f.IsRead codec limit) (hlimit : 0 < limit) :
    codec.tokens limit false (wire frames) = payloads frames := by
  have hroom : ¬ limit ≤ ([] : Bytes).length := Nat.not_le_of_lt hlimit
  have hdecode := decode_wire_append hframes (some Codec.pending) []
  rw [List.append_nil, Codec.decode_of_room hlimit (Codec.split_nil codec false), Codec.conclude,
    if_neg hroom] at hdecode
  rw [Codec.tokens, if_neg Bool.false_ne_true, hdecode, Codec.filterMap_toOption_append]
  exact List.append_nil _

/-- Nothing is added to the tokens of frames when their stream ends behind the last one. -/
theorem tokens_of_wire_ended (hframes : ∀ f ∈ frames, f.IsRead codec limit) (hlimit : 0 < limit) :
    codec.tokens limit true (wire frames) = payloads frames := by
  have hdecode := decode_wire_append hframes none []
  rw [List.append_nil, Codec.decode_nil codec hlimit] at hdecode
  rw [Codec.tokens, if_pos rfl, hdecode, Codec.filterMap_toOption_append]
  exact List.append_nil _

/-- When all tokens are there, so are all bytes. -/
theorem eq_wire_of_tokens (hframes : ∀ f ∈ frames, f.IsRead codec limit)
    (hbytes : bytes <+: wire frames) (hlimit : 0 < limit)
    (htokens : codec.tokens limit false bytes = payloads frames) : bytes = wire frames := by
  obtain ⟨whole, hwhole, hwire, hsome⟩ := tokens_of_prefix hframes hbytes hlimit
  have hlength : whole.length = frames.length := by
    have hsame := congrArg List.length (hsome.symm.trans htokens)
    simpa [payloads] using hsame
  obtain rfl := hwhole.eq_of_length hlength
  exact hbytes.eq_of_length_le hwire.length_le

end

end Frame

namespace Outlet

open Sidecar.Frame

/-- An outlet that is fed a part of frames goes on decoding. -/
theorem feed_decodes {codec : Codec} {limit : Nat} {hasEnded : Bool} {bytes more : Bytes}
    {taken : List Bytes} {o : Outlet} {frames : List Frame}
    (hcut : Cut codec limit hasEnded bytes taken o) (hphase : o.phase = .decoding)
    (hframes : ∀ f ∈ frames, f.IsRead codec limit) (hbytes : bytes ++ more <+: wire frames)
    (hlimit : 0 < limit) : (o.feed more).phase = .decoding := by
  obtain ⟨-, hpoured, rfl, rfl, hbefore⟩ := hcut.decoding hphase
  cases takes_feed hpoured more with
  | on _ hpoured' => exact hpoured'.decoding
  | off new failure _ _ _ hitems =>
    -- The failure would not depend on how the stream fails, but that of frames does.
    obtain ⟨whole, -, -, hdecode⟩ := decode_of_prefix hframes hbytes hlimit
    have hfails : ∀ fault : IoFault, failure = .io fault := by
      intro fault
      have hall := hbefore (some fault) more
      have hnew := hitems (some fault) []
      rw [List.append_nil] at hnew
      rw [hdecode, hnew, ← List.append_assoc] at hall
      have hlast := (List.append_inj' hall rfl).2
      simpa using hlast.symm
    have hdiffer := (hfails (.ofKind .wouldBlock)).symm.trans (hfails (.ofKind .other))
    cases hdiffer

end Outlet

end Sidecar
