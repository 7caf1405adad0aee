import Sidecar.Proofs.Codec.Prefix

/-!
# Frames split back

`frame` lays out what `Codec.encode` writes. For a payload that its codec can carry, the frame is
split off whatever follows it and gives the payload back (`split_frame_append`), and as long as a
byte of it is missing more bytes are needed (`split_take_frame`).
-/

namespace Sidecar

/-- A number is written with no more digits than it counts, unless it is zero. -/
theorem Decimal.length_digits_le (n : Nat) : (Decimal.digits n).length ≤ max n 1 := by
  induction n using Decimal.digits.induct with
  | case1 n h =>
    rw [Decimal.digits, if_pos h]
    exact Nat.le_max_right ..
  | case2 n h ih =>
    rw [Decimal.digits, if_neg h, List.length_append, List.length_singleton]
    omega

namespace Codec

/-- Whether a codec can carry a payload so that it comes out as it went in. -/
def Carries (codec : Codec) (payload : Bytes) : Prop :=
  match codec with
  | .lines => Bytes.newline ∉ payload ∧ payload.getLast? ≠ some Bytes.carriageReturn
  | .lengthPrefixed => payload.length < 0x1_0000_0000
  | .netstring => payload.length ≤ maxDeclared

instance (codec : Codec) (payload : Bytes) : Decidable (codec.Carries payload) :=
  match codec with
  | .lines => inferInstanceAs (Decidable (_ ∧ _))
  | .lengthPrefixed => inferInstanceAs (Decidable (_ < _))
  | .netstring => inferInstanceAs (Decidable (_ ≤ _))

/-- The frame of a payload: its header, the payload and its terminator. -/
def frame (codec : Codec) (payload : Bytes) : Bytes :=
  match codec with
  | .lines => payload ++ [Bytes.newline]
  | .lengthPrefixed => bigEndian payload.length ++ payload
  | .netstring =>
    Decimal.digits payload.length ++ Bytes.colon :: (payload ++ [Bytes.comma])

/-- A payload that can be carried is written as its frame. -/
theorem encode_eq_frame {codec : Codec} {payload : Bytes} (h : codec.Carries payload) :
    codec.encode payload = .ok (codec.frame payload) := by
  cases codec with
  | lines => simp [encode, envelope, Except.map, Envelope.wrap, frame]
  | lengthPrefixed =>
    have henvelope : envelope .lengthPrefixed payload.length =
        .ok ⟨some (bigEndian payload.length), none⟩ := if_pos h
    simp [encode, henvelope, Except.map, Envelope.wrap, frame]
  | netstring => simp [encode, envelope, Except.map, Envelope.wrap, frame]

/-- Payloads that can be carried are written as their frames. -/
theorem mapM_encode_eq_frames {codec : Codec} {payloads : List Bytes}
    (h : ∀ p ∈ payloads, codec.Carries p) :
    payloads.mapM codec.encode = .ok (payloads.map codec.frame) := by
  induction payloads with
  | nil => rfl
  | cons p rest ih =>
    rw [List.mapM_cons, encode_eq_frame (h p List.mem_cons_self),
      ih fun q hq ↦ h q (List.mem_cons_of_mem p hq)]
    rfl

/-- The piece before the first of some byte, where that byte is seen to be. -/
theorem takeWhile_ne_concat {b : UInt8} {piece : Bytes} (h : b ∉ piece) (rest : Bytes) :
    (piece ++ b :: rest).takeWhile (· != b) = piece := by
  rw [List.takeWhile_append_of_pos]
  · simp
  · intro a ha
    exact bne_iff_ne.mpr fun he ↦ h (he ▸ ha)

/-! ## Lines -/

private theorem split_line_append {payload : Bytes} (h : Codec.lines.Carries payload)
    (rest : Bytes) :
    splitLine (Codec.lines.frame payload ++ rest) false =
      some ((Codec.lines.frame payload).length, payload) := by
  obtain ⟨hfree, hlast⟩ := h
  have hmem : Bytes.newline ∈ payload ++ Bytes.newline :: rest := by simp
  simp only [frame, List.append_assoc, List.singleton_append, splitLine, if_pos hmem,
    takeWhile_ne_concat hfree, Bytes.dropCarriageReturn_of_ne hlast, List.length_append,
    List.length_singleton]

private theorem split_take_line {payload : Bytes} (h : Codec.lines.Carries payload) {k : Nat}
    (hk : k < (Codec.lines.frame payload).length) :
    splitLine ((Codec.lines.frame payload).take k) false = none := by
  have hle : k ≤ payload.length := by
    simp only [frame, List.length_append, List.length_singleton] at hk
    omega
  have htake : (Codec.lines.frame payload).take k = payload.take k := by
    simp only [frame, List.take_append_of_le_length hle]
  have hfree : Bytes.newline ∉ payload.take k := fun hm ↦ h.1 (List.mem_of_mem_take hm)
  simp [htake, splitLine, hfree]

/-! ## Payloads behind a binary length -/

private theorem take_lengthBytes (payload rest : Bytes) :
    (Codec.lengthPrefixed.frame payload ++ rest).take lengthBytes = bigEndian payload.length := by
  rw [frame, List.append_assoc, ← length_bigEndian payload.length, List.take_left]

private theorem length_frame (payload : Bytes) :
    (Codec.lengthPrefixed.frame payload).length = lengthBytes + payload.length := by
  rw [frame, List.length_append, length_bigEndian]

private theorem split_prefixed_append {payload : Bytes} (h : payload.length < 0x1_0000_0000)
    (rest : Bytes) :
    splitLengthPrefixed (Codec.lengthPrefixed.frame payload ++ rest) false =
      some ((Codec.lengthPrefixed.frame payload).length, payload) := by
  have hlength := length_frame payload
  have hlong : ¬ (Codec.lengthPrefixed.frame payload ++ rest).length < lengthBytes := by
    rw [List.length_append]; omega
  simp only [splitLengthPrefixed, Bool.false_eq_true, false_or, if_neg hlong, take_lengthBytes,
    ofBigEndian_bigEndian h, ← hlength]
  rw [if_pos (by rw [List.length_append]; omega), List.take_left]
  simp only [frame, List.drop_left' (length_bigEndian payload.length)]

private theorem split_take_prefixed {payload : Bytes} (h : payload.length < 0x1_0000_0000) {k : Nat}
    (hk : k < (Codec.lengthPrefixed.frame payload).length) :
    splitLengthPrefixed ((Codec.lengthPrefixed.frame payload).take k) false = none := by
  have hlength := length_frame payload
  have htaken : ((Codec.lengthPrefixed.frame payload).take k).length = k := by
    rw [List.length_take]; omega
  by_cases hshort : k < lengthBytes
  · simp [splitLengthPrefixed, htaken, hshort]
  · have hprefix : ((Codec.lengthPrefixed.frame payload).take k).take lengthBytes =
        bigEndian payload.length := by
      have := take_lengthBytes payload []
      rw [List.append_nil] at this
      rw [List.take_take, Nat.min_eq_left (by omega), this]
    simp only [splitLengthPrefixed, Bool.false_eq_true, false_or, htaken, if_neg hshort, hprefix,
      ofBigEndian_bigEndian h]
    rw [if_neg (by omega)]

/-! ## Netstrings -/

private theorem colon_notMem_digits (n : Nat) : Bytes.colon ∉ Decimal.digits n := by
  intro hm
  have := Decimal.isDigit_of_mem_digits hm
  exact absurd this (by decide)

private theorem declaredLength_digits {n : Nat} (h : n ≤ maxDeclared) :
    declaredLength (Decimal.digits n) = .ok n := by
  have hall : (Decimal.digits n).all Decimal.isDigit = true :=
    List.all_eq_true.mpr fun _ hd ↦ Decimal.isDigit_of_mem_digits hd
  simp [declaredLength, hall, Decimal.value_digits, h]

/-- A netstring whose length can be read is decided by the byte behind its payload. -/
theorem splitNetstring_of_declared {ds : Bytes} {declared : Nat} (hfree : Bytes.colon ∉ ds)
    (hne : ds ≠ []) (hd : declaredLength ds = .ok declared)
    (hrange : ds.length + 1 + declared < 0x1_0000_0000_0000_0000) (body : Bytes) :
    splitNetstring (ds ++ Bytes.colon :: body) false =
      match body[declared]? with
      | none => .ok none
      | some b =>
        if b = Bytes.comma then .ok (some (ds.length + 1 + declared + 1, body.take declared))
        else .error .missingComma := by
  have hmem : Bytes.colon ∈ ds ++ Bytes.colon :: body := by simp
  have hget : (ds ++ Bytes.colon :: body)[ds.length + 1 + declared]? = body[declared]? := by
    rw [List.getElem?_append_right (by omega), Nat.add_assoc, Nat.add_sub_cancel_left,
      Nat.add_comm 1, List.getElem?_cons_succ]
  have hslice : ((ds ++ Bytes.colon :: body).take (ds.length + 1 + declared)).drop
      (ds.length + 1) = body.take declared := by
    rw [Nat.add_assoc, Nat.add_comm 1, List.take_length_add_append, List.take_succ_cons,
      List.drop_length_add_append, List.drop_succ_cons, List.drop_zero]
  have hstop := Nat.not_le_of_lt hrange
  cases hbyte : body[declared]? with
  | none =>
    simp only [splitNetstring, Bool.false_eq_true, false_or, hmem, not_true_eq_false, if_false,
      takeWhile_ne_concat hfree, hne, hd, bind, Except.bind, hstop, hget, hbyte]
  | some b =>
    simp only [splitNetstring, Bool.false_eq_true, false_or, hmem, not_true_eq_false, if_false,
      takeWhile_ne_concat hfree, hne, hd, bind, Except.bind, hstop, hget, hslice, hbyte]

private theorem length_digits_within {n : Nat} (h : n ≤ maxDeclared) :
    (Decimal.digits n).length + 1 + n < 0x1_0000_0000_0000_0000 := by
  have hlength := Decimal.length_digits_le n
  have hmax : maxDeclared = 0x7fff_ffff_ffff_ffff := rfl
  omega

private theorem split_netstring_append {payload : Bytes} (h : payload.length ≤ maxDeclared)
    (rest : Bytes) :
    splitNetstring (Codec.netstring.frame payload ++ rest) false =
      .ok (some ((Codec.netstring.frame payload).length, payload)) := by
  have hlayout : Codec.netstring.frame payload ++ rest =
      Decimal.digits payload.length ++ Bytes.colon :: (payload ++ Bytes.comma :: rest) := by
    simp [frame]
  have hlength : (Codec.netstring.frame payload).length =
      (Decimal.digits payload.length).length + 1 + payload.length + 1 := by
    simp only [frame, List.length_append, List.length_cons, List.length_nil]
    omega
  have hget : (payload ++ Bytes.comma :: rest)[payload.length]? = some Bytes.comma := by simp
  have hsplit := splitNetstring_of_declared (colon_notMem_digits payload.length)
    (Decimal.digits_ne_nil _) (declaredLength_digits h) (length_digits_within h)
    (payload ++ Bytes.comma :: rest)
  rw [hget] at hsplit
  simp only [if_true, List.take_left] at hsplit
  rw [hlayout, hsplit, hlength]

private theorem split_take_netstring {payload : Bytes} (h : payload.length ≤ maxDeclared) {k : Nat}
    (hk : k < (Codec.netstring.frame payload).length) :
    splitNetstring ((Codec.netstring.frame payload).take k) false = .ok none := by
  by_cases hdigits : k ≤ (Decimal.digits payload.length).length
  · have htake : (Codec.netstring.frame payload).take k =
        (Decimal.digits payload.length).take k := by
      simp only [frame, List.take_append_of_le_length hdigits]
    have hfree : Bytes.colon ∉ (Decimal.digits payload.length).take k := fun hm ↦
      colon_notMem_digits _ (List.mem_of_mem_take hm)
    simp [htake, splitNetstring, hfree]
  · obtain ⟨m, rfl⟩ : ∃ m, k = (Decimal.digits payload.length).length + (m + 1) :=
      ⟨k - (Decimal.digits payload.length).length - 1, by omega⟩
    have htake : (Codec.netstring.frame payload).take
        ((Decimal.digits payload.length).length + (m + 1)) =
          Decimal.digits payload.length ++
            Bytes.colon :: (payload ++ [Bytes.comma]).take m := by
      rw [frame, List.take_length_add_append, List.take_succ_cons]
    have hget : ((payload ++ [Bytes.comma]).take m)[payload.length]? = none := by
      simp only [frame, List.length_append, List.length_cons, List.length_nil] at hk
      rw [List.getElem?_eq_none_iff, List.length_take]
      omega
    rw [htake, splitNetstring_of_declared (colon_notMem_digits _) (Decimal.digits_ne_nil _)
      (declaredLength_digits h) (length_digits_within h), hget]

/-! ## All codecs -/

/-- A frame is split off whatever follows it, and gives its payload. -/
theorem split_frame_append {codec : Codec} {payload : Bytes} (h : codec.Carries payload)
    (rest : Bytes) :
    codec.split (codec.frame payload ++ rest) false =
      .ok (some ((codec.frame payload).length, payload)) := by
  cases codec with
  | lines => exact congrArg Except.ok (split_line_append h rest)
  | lengthPrefixed => exact congrArg Except.ok (split_prefixed_append h rest)
  | netstring => exact split_netstring_append h rest

/-- While a byte of a frame is missing more bytes are needed. -/
theorem split_take_frame {codec : Codec} {payload : Bytes} (h : codec.Carries payload) {k : Nat}
    (hk : k < (codec.frame payload).length) :
    codec.split ((codec.frame payload).take k) false = .ok none := by
  cases codec with
  | lines => exact congrArg Except.ok (split_take_line h hk)
  | lengthPrefixed => exact congrArg Except.ok (split_take_prefixed h hk)
  | netstring => exact split_take_netstring h hk

end Codec
end Sidecar
