import Sidecar.Proofs.Codec.Encode
import Sidecar.Proofs.Stream.Chunking

/-!
# Writing and reading back

Frames that are written one behind the other are read back as their payloads, as far as they fit
the reader's buffer. A frame fits with its header and its terminator or not at all; the first that
does not ends the items with the failure that says so.
-/

namespace Sidecar

namespace Codec

open Tokenizer (Item)

/-- Whether the frame of a payload fits a buffer, header and terminator included. -/
def fits (codec : Codec) (limit : Nat) (payload : Bytes) : Bool :=
  match codec.encode payload with
  | .ok frame => frame.length ≤ limit
  | .error _ => false

/-- A payload that can be carried fits when its frame does. -/
theorem fits_eq_of_carries {codec : Codec} {payload : Bytes} (h : codec.Carries payload)
    (limit : Nat) : codec.fits limit payload = decide ((codec.frame payload).length ≤ limit) := by
  rw [fits, encode_eq_frame h]

/-- What is read back of frames with these payloads: the payloads that come before the first frame
that does not fit, and the failure where there is such a frame. -/
def readBack (codec : Codec) (limit : Nat) (payloads : List Bytes) : List Item :=
  (payloads.takeWhile (codec.fits limit)).map .ok ++
    if payloads.all (codec.fits limit) then [] else [.error (.framing (.tokenTooLong limit))]

/-- A payload that fits comes before what is read back of the others. -/
theorem readBack_cons_of_fits {codec : Codec} {limit : Nat} {payload : Bytes}
    (h : codec.fits limit payload = true) (payloads : List Bytes) :
    codec.readBack limit (payload :: payloads) =
      .ok payload :: codec.readBack limit payloads := by
  simp [readBack, h]

/-- Nothing is read back from the first payload on that does not fit. -/
theorem readBack_cons_of_not_fits {codec : Codec} {limit : Nat} {payload : Bytes}
    (h : codec.fits limit payload = false) (payloads : List Bytes) :
    codec.readBack limit (payload :: payloads) =
      [.error (.framing (.tokenTooLong limit))] := by
  simp [readBack, h]

/-- A stream of nothing has no items. -/
theorem decode_nil (codec : Codec) {limit : Nat} (h : 0 < limit) :
    codec.decode limit none [] = [] := by
  rw [decode_of_room h (split_nil codec false)]
  simp [conclude, Nat.ne_of_gt h, split_nil]

/-- The items of a stream of frames are what is read back of their payloads. -/
theorem decode_frames {codec : Codec} {limit : Nat} (hlimit : 0 < limit) {payloads : List Bytes}
    (h : ∀ p ∈ payloads, codec.Carries p) :
    codec.decode limit none (payloads.map codec.frame).flatten =
      codec.readBack limit payloads := by
  induction payloads with
  | nil => exact decode_nil codec hlimit
  | cons p rest ih =>
    have hp : codec.Carries p := h p List.mem_cons_self
    have hfits := fits_eq_of_carries hp limit
    rw [List.map_cons, List.flatten_cons]
    by_cases hle : (codec.frame p).length ≤ limit
    · have hsplit := split_frame_append hp []
      rw [List.append_nil] at hsplit
      rw [readBack_cons_of_fits (by rw [hfits, decide_eq_true hle]),
        ← ih fun q hq ↦ h q (List.mem_cons_of_mem p hq), decode_append_of_token hle hsplit,
        List.drop_length, List.nil_append]
    · -- The buffer is full before the frame is whole.
      have hlt : limit < (codec.frame p).length := Nat.lt_of_not_le hle
      have hfull : ((codec.frame p).take limit).length = limit := by
        rw [List.length_take]
        omega
      rw [readBack_cons_of_not_fits (by rw [hfits, decide_eq_false hle]),
        ← List.take_append_drop limit (codec.frame p), List.append_assoc,
        decode_append_of_full hfull (split_take_frame hp hlt)]

end Codec

namespace Tokenizer

/-- Payloads that a codec can carry are written without fault, and a source that serves the frames
one behind the other, in however many reads, makes a fresh reader hand out what is read back of
them, and nothing after it. -/
theorem items_of_encoded {codec : Codec} {payloads : List Bytes}
    (h : ∀ p ∈ payloads, codec.Carries p) (maxBuffer : Nat) :
    ∃ frames, payloads.mapM codec.encode = .ok frames ∧
      ∀ source : Source, source.stream = frames.flatten → source.ending = none →
        ((fresh codec maxBuffer).items source).1 = codec.readBack (max maxBuffer 1) payloads ∧
          ∀ later : Source,
            (((fresh codec maxBuffer).items source).2.1.next later).1 = none := by
  refine ⟨payloads.map codec.frame, Codec.mapM_encode_eq_frames h, ?_⟩
  intro source hstream hending
  have hitems := (reading_fresh codec maxBuffer).items_eq source
  have hlimit : 0 < max maxBuffer 1 := Nat.lt_of_lt_of_le Nat.one_pos (Nat.le_max_right ..)
  constructor
  · calc ((fresh codec maxBuffer).items source).1
        = codec.decode (max maxBuffer 1) none (payloads.map codec.frame).flatten := by
          rw [hitems.1, hstream, hending]
          rfl
      _ = codec.readBack (max maxBuffer 1) payloads := Codec.decode_frames hlimit h
  · intro later
    rw [next_of_finished hitems.2]

/-- Netstrings of a colon, of nothing and of two bytes, in reads of at most three bytes and with an
interruption. The buffer holds four bytes, and the last frame has five. -/
theorem items_of_encoded_netstrings :
    (∀ p ∈ ([[Bytes.colon], [], [0x61, 0x62]] : List Bytes), Codec.netstring.Carries p) ∧
      ((fresh .netstring 4).items (.ofScript (some 3)
        [.serve [0x31, 0x3a, 0x3a, 0x2c, 0x30, 0x3a, 0x2c, 0x32], .fail (.ofKind .interrupted),
          .serve [0x3a, 0x61, 0x62, 0x2c]])).1 =
        [.ok [Bytes.colon], .ok [], .error (.framing (.tokenTooLong 4))] := by
  have hcarries : ∀ p ∈ ([[Bytes.colon], [], [0x61, 0x62]] : List Bytes),
      Codec.netstring.Carries p := by decide
  obtain ⟨frames, hframes, hall⟩ := items_of_encoded hcarries 4
  have hwire : frames = [[0x31, 0x3a, 0x3a, 0x2c], [0x30, 0x3a, 0x2c],
      [0x32, 0x3a, 0x61, 0x62, 0x2c]] :=
    Except.ok.inj (hframes.symm.trans (by cbv))
  refine ⟨hcarries, (hall _ (by rw [hwire]; decide) (by decide)).1.trans ?_⟩
  cbv

end Tokenizer
end Sidecar
