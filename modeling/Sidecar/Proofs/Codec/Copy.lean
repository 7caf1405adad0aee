import Sidecar.Proofs.Codec.Encode
import Sidecar.Proofs.Stream.Frames

/-!
# Payloads that come back

A frame that is copied is read again. What comes back is the payload (`isRead_frame`); only a line
comes back without the carriage return at its end.
-/

namespace Sidecar.Codec

/-- What a payload is when its frame is read. -/
def returned (codec : Codec) (payload : Bytes) : Bytes :=
  match codec with
  | .lines => Bytes.dropCarriageReturn payload
  | .lengthPrefixed => payload
  | .netstring => payload

/-- Whether the frame of a payload is one frame for a reader. -/
def Delivers (codec : Codec) (payload : Bytes) : Prop :=
  match codec with
  | .lines => Bytes.newline ∉ payload
  | .lengthPrefixed => payload.length < 0x1_0000_0000
  | .netstring => payload.length ≤ maxDeclared

section

variable {codec : Codec} {payload : Bytes} {limit : Nat}

/-- A payload that is delivered can be put into an envelope. -/
theorem envelope_of_delivers (h : codec.Delivers payload) :
    ∃ envelope, codec.envelope payload.length = .ok envelope ∧
      envelope.wrap payload = codec.frame payload := by
  cases codec with
  | lines => exact ⟨_, rfl, by simp [Envelope.wrap, frame]⟩
  | lengthPrefixed => exact ⟨_, if_pos h, by simp [Envelope.wrap, frame]⟩
  | netstring => exact ⟨_, rfl, by simp [Envelope.wrap, frame]⟩

/-- The frame of a payload is read as what comes back of the payload. -/
theorem isRead_frame (h : codec.Delivers payload) (hfits : (codec.frame payload).length ≤ limit) :
    Frame.IsRead codec limit ⟨codec.frame payload, codec.returned payload⟩ := by
  refine ⟨hfits, ?_⟩
  cases codec with
  | lines =>
    have hmem : Bytes.newline ∈ payload ++ [Bytes.newline] := by simp
    simp only [split, frame, splitLine, if_pos hmem, takeWhile_ne_concat h, returned,
      List.length_append, List.length_singleton]
  | lengthPrefixed =>
    have hsplit := split_frame_append (show lengthPrefixed.Carries payload from h) []
    rwa [List.append_nil] at hsplit
  | netstring =>
    have hsplit := split_frame_append (show netstring.Carries payload from h) []
    rwa [List.append_nil] at hsplit

/-- A frame is read as one token only. -/
theorem token_unique {bytes token token' : Bytes} (h : Frame.IsRead codec limit ⟨bytes, token⟩)
    (h' : Frame.IsRead codec limit ⟨bytes, token'⟩) : token = token' := by
  have hsame := h.splits.symm.trans h'.splits
  simpa using hsame

/-- A payload that is framed without a fault, and has a length that can be declared, is delivered,
unless it is a line with a newline in it. -/
theorem delivers_of_encode {bytes : Bytes} (h : codec.encode payload = .ok bytes)
    (hlines : codec = .lines → Bytes.newline ∉ payload) (hlength : payload.length ≤ maxDeclared) :
    codec.Delivers payload ∧ bytes = codec.frame payload := by
  have hdelivers : codec.Delivers payload := by
    cases codec with
    | lines => exact hlines rfl
    | lengthPrefixed =>
      by_cases hshort : payload.length < 0x1_0000_0000
      · exact hshort
      · simp [encode, envelope, hshort, Except.map] at h
    | netstring => exact hlength
  obtain ⟨envelope, henvelope, hwrap⟩ := envelope_of_delivers hdelivers
  rw [encode, henvelope] at h
  exact ⟨hdelivers, (Except.ok.inj h).symm.trans hwrap⟩

end

end Sidecar.Codec
