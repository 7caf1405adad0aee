import Mathlib.Data.List.Infix
import Sidecar.Proofs.Stream.RoundTrip

/-!
# Frames cut off by the end of a stream

A stream of frames may end anywhere, as when whoever writes them dies. The frames that have arrived
as a whole are read as their payloads, and what has arrived of the next one is not taken for it:
behind a length an incomplete payload is dropped, and only an unterminated last line is still handed
out.
-/

namespace Sidecar

namespace Codec

/-- How many of some frames lie completely within the first bytes of their wire. -/
def wholeFrames (k : Nat) (frames : List Bytes) : Nat :=
  frames.inits.tail.countP (·.flatten.length ≤ k)

/-- The bytes behind the whole frames, which belong to a frame that is cut off. -/
def cutPiece (k : Nat) (frames : List Bytes) : Bytes :=
  (frames.flatten.take k).drop (frames.take (wholeFrames k frames)).flatten.length

/-- What is handed out of a piece of a frame at the end of a stream. -/
def salvage (codec : Codec) (piece : Bytes) : List Bytes :=
  match codec with
  | .lines => if piece = [] then [] else [Bytes.dropCarriageReturn piece]
  | .lengthPrefixed => []
  | .netstring => []

section

variable {codec : Codec} {limit k : Nat} {f payload : Bytes} {frames payloads : List Bytes}

/-- A frame that is there as a whole counts, and the others are counted from its end on. -/
theorem wholeFrames_cons_of_le (h : f.length ≤ k) (frames : List Bytes) :
    wholeFrames k (f :: frames) = wholeFrames (k - f.length) frames + 1 := by
  have hrest : ∀ first : List Bytes,
      (f :: first).flatten.length ≤ k ↔ first.flatten.length ≤ k - f.length := by
    intro first
    rw [List.flatten_cons, List.length_append]
    omega
  have hinits : frames.inits = [] :: frames.inits.tail := by cases frames <;> rfl
  simp only [wholeFrames, List.inits_cons, List.tail_cons, List.countP_map, Function.comp_def,
    hrest]
  rw [hinits, List.countP_cons]
  simp

/-- Where the first frame is cut off no frame is there as a whole. -/
theorem wholeFrames_cons_of_lt (h : k < f.length) (frames : List Bytes) :
    wholeFrames k (f :: frames) = 0 := by
  rw [wholeFrames, List.countP_eq_zero]
  intro first hfirst
  obtain ⟨rest, -, rfl⟩ : ∃ rest, rest <+: frames ∧ f :: rest = first := by
    simpa using hfirst
  simp only [List.flatten_cons, List.length_append, decide_eq_true_eq]
  omega

/-- What is behind a whole frame is cut off as it is without the frame. -/
theorem cutPiece_cons_of_le (h : f.length ≤ k) (frames : List Bytes) :
    cutPiece k (f :: frames) = cutPiece (k - f.length) frames := by
  rw [cutPiece, cutPiece, wholeFrames_cons_of_le h, List.take_succ_cons, List.flatten_cons,
    List.flatten_cons, List.take_append, List.take_of_length_le h, List.length_append,
    List.drop_length_add_append]

/-- A first frame that is cut off is the piece. -/
theorem cutPiece_cons_of_lt (h : k < f.length) (frames : List Bytes) :
    cutPiece k (f :: frames) = f.take k := by
  rw [cutPiece, wholeFrames_cons_of_lt h, List.take_zero, List.flatten_nil, List.length_nil,
    List.drop_zero, List.flatten_cons, List.take_append_of_le_length (Nat.le_of_lt h)]

/-- At the end of a stream of lines, bytes that fit without a newline are salvaged. -/
theorem conclude_of_free {piece : Bytes} (hfree : Bytes.newline ∉ piece)
    (hroom : piece.length < limit) :
    Codec.lines.conclude limit none piece = (Codec.lines.salvage piece).map .ok := by
  rw [conclude, if_neg (Nat.not_le_of_lt hroom)]
  by_cases hempty : piece = []
  · simp [split, splitLine, salvage, hempty]
  · simp [split, splitLine, salvage, hfree, hempty]

/-- At the end of a stream a piece of a frame is salvaged. -/
theorem conclude_take_frame (hcarries : codec.Carries payload)
    (hfits : (codec.frame payload).length ≤ limit) (hk : k < (codec.frame payload).length) :
    codec.conclude limit none ((codec.frame payload).take k) =
      (codec.salvage ((codec.frame payload).take k)).map .ok := by
  have hroom : ((codec.frame payload).take k).length < limit := by
    rw [List.length_take]
    omega
  cases codec with
  | lines =>
    -- The newline comes last, so it is not in the piece.
    have hle : k ≤ payload.length := by
      simp only [frame, List.length_append, List.length_singleton] at hk
      omega
    have hpiece : (Codec.lines.frame payload).take k = payload.take k := by
      rw [frame, List.take_append_of_le_length hle]
    have hfree : Bytes.newline ∉ payload.take k := fun hm ↦ hcarries.1 (List.mem_of_mem_take hm)
    rw [hpiece] at hroom ⊢
    exact conclude_of_free hfree hroom
  | lengthPrefixed =>
    rw [conclude, if_neg (Nat.not_le_of_lt hroom)]
    simp [split, splitLengthPrefixed, salvage]
  | netstring =>
    rw [conclude, if_neg (Nat.not_le_of_lt hroom)]
    simp [split, splitNetstring, salvage]

/-- The items of a stream of frames that ends within them: the payloads of the whole frames, and
what is salvaged of the piece behind them. -/
theorem decode_truncated (hlimit : 0 < limit) (hcarries : ∀ p ∈ payloads, codec.Carries p)
    (hfits : ∀ p ∈ payloads, (codec.frame p).length ≤ limit) :
    codec.decode limit none ((payloads.map codec.frame).flatten.take k) =
      (payloads.take (wholeFrames k (payloads.map codec.frame)) ++
        codec.salvage (cutPiece k (payloads.map codec.frame))).map .ok := by
  induction payloads generalizing k with
  | nil =>
    have hnothing : codec.salvage [] = [] := by cases codec <;> rfl
    rw [List.map_nil, List.flatten_nil, List.take_nil, decode_nil codec hlimit]
    simp [cutPiece, hnothing]
  | cons p rest ih =>
    have hp := hcarries p List.mem_cons_self
    have hle := hfits p List.mem_cons_self
    rw [List.map_cons, List.flatten_cons]
    by_cases hwhole : (codec.frame p).length ≤ k
    · have hsplit := split_frame_append hp []
      rw [List.append_nil] at hsplit
      rw [List.take_append, List.take_of_length_le hwhole, decode_append_of_token hle hsplit,
        List.drop_length, List.nil_append, wholeFrames_cons_of_le hwhole,
        cutPiece_cons_of_le hwhole, List.take_succ_cons, List.cons_append, List.map_cons,
        ih (fun q hq ↦ hcarries q (List.mem_cons_of_mem p hq))
          fun q hq ↦ hfits q (List.mem_cons_of_mem p hq)]
    · have hcut : k < (codec.frame p).length := Nat.lt_of_not_le hwhole
      have hroom : ((codec.frame p).take k).length < limit := by
        rw [List.length_take]
        omega
      rw [List.take_append_of_le_length (Nat.le_of_lt hcut),
        decode_of_room hroom (split_take_frame hp hcut), conclude_take_frame hp hle hcut,
        wholeFrames_cons_of_lt hcut, cutPiece_cons_of_lt hcut, List.take_zero, List.nil_append]

end

end Codec

namespace Tokenizer

/-- Payloads whose frames fit the buffer are written, and the stream ends somewhere within their
frames. A fresh reader hands out the payloads of the frames that lie completely before that,
whatever the reads, and after them nothing, but for lines the unterminated piece that is left, if
there is one. It meets no failure. -/
theorem items_of_truncated {codec : Codec} {payloads : List Bytes} {maxBuffer : Nat}
    (hcarries : ∀ p ∈ payloads, codec.Carries p)
    (hfits : ∀ p ∈ payloads, codec.fits (max maxBuffer 1) p = true) (k : Nat) :
    ∃ frames, payloads.mapM codec.encode = .ok frames ∧
      ∀ source : Source, source.stream = frames.flatten.take k → source.ending = none →
        ((fresh codec maxBuffer).items source).1 =
            (payloads.take (Codec.wholeFrames k frames) ++
              codec.salvage (Codec.cutPiece k frames)).map .ok ∧
          ∀ later : Source,
            (((fresh codec maxBuffer).items source).2.1.next later).1 = none := by
  refine ⟨payloads.map codec.frame, Codec.mapM_encode_eq_frames hcarries, ?_⟩
  intro source hstream hending
  have hitems := (reading_fresh codec maxBuffer).items_eq source
  have hlimit : 0 < max maxBuffer 1 := Nat.lt_of_lt_of_le Nat.one_pos (Nat.le_max_right ..)
  have hlengths : ∀ p ∈ payloads, (codec.frame p).length ≤ max maxBuffer 1 := by
    intro p hp
    have hfit := hfits p hp
    rwa [Codec.fits_eq_of_carries (hcarries p hp), decide_eq_true_eq] at hfit
  constructor
  · calc ((fresh codec maxBuffer).items source).1
        = codec.decode (max maxBuffer 1) none ((payloads.map codec.frame).flatten.take k) := by
          rw [hitems.1, hstream, hending]
          rfl
      _ = _ := Codec.decode_truncated hlimit hcarries hlengths
  · intro later
    rw [next_of_finished hitems.2]

/-- Two lines of which the second is cut off behind a carriage return, in reads of at most two
bytes. The buffer holds four bytes, as many as the longer frame has. -/
theorem items_of_truncated_lines :
    (∀ p ∈ ([[0x61, 0x62], [0x63, 0x0d, 0x64]] : List Bytes),
        Codec.lines.Carries p ∧ Codec.lines.fits 4 p = true) ∧
      ((fresh .lines 4).items (.ofScript (some 2) [.serve [0x61, 0x62, 0x0a, 0x63, 0x0d]])).1 =
        [.ok [0x61, 0x62], .ok [0x63]] := by
  have hcarries : ∀ p ∈ ([[0x61, 0x62], [0x63, 0x0d, 0x64]] : List Bytes),
      Codec.lines.Carries p := by decide
  have hfits : ∀ p ∈ ([[0x61, 0x62], [0x63, 0x0d, 0x64]] : List Bytes),
      Codec.lines.fits (max 4 1) p = true := by decide
  obtain ⟨frames, hframes, hall⟩ := items_of_truncated hcarries hfits 5
  have hwire : frames = [[0x61, 0x62, 0x0a], [0x63, 0x0d, 0x64, 0x0a]] :=
    Except.ok.inj (hframes.symm.trans (by cbv))
  refine ⟨fun p hp ↦ ⟨hcarries p hp, hfits p hp⟩,
    (hall _ (by rw [hwire]; decide) (by decide)).1.trans ?_⟩
  rw [hwire]
  rfl

end Tokenizer
end Sidecar
