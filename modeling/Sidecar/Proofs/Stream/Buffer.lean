import Sidecar.Proofs.Stream.Chunking

/-!
# The buffer of a reader

The unread bytes of a reader lie in a buffer, between the positions where they begin and where they
end. `Buffered` is a reader with its buffer: before a read the bytes are moved to the front, and a
full buffer grows, up to its limit. It does what a `Tokenizer` does, which keeps the bytes without
their place (`Sound.view_poll`, `Sound.view_receive`, `Visited.next`).

Whatever is read, the positions stay in order and within the buffer (`Sound`), and a read is made
only where there is room for it and where the unread bytes have no token in them and nothing wrong
(`Visited.reads_only_for_more`).
-/

namespace Sidecar

/-- A reader with its buffer. -/
structure Buffered where
  /-- How tokens are delimited. -/
  codec : Codec
  /-- The largest size of the buffer, at least one. -/
  limit : Nat
  buffer : Bytes
  /-- Where the unread bytes begin. -/
  start : Nat
  /-- Where the unread bytes end. -/
  stop : Nat
  /-- Whether the stream has ended. -/
  atEnd : Bool
  /-- Whether nothing more will be handed out. -/
  finished : Bool
  deriving DecidableEq, Repr

namespace Buffered

/-- A reader that has received nothing, and has no buffer yet. -/
def fresh (codec : Codec) (maxBuffer : Nat) : Buffered :=
  ⟨codec, max maxBuffer 1, [], 0, 0, false, false⟩

/-- The unread bytes. -/
def slice (b : Buffered) : Bytes := (b.buffer.take b.stop).drop b.start

/-- The reader without the place of its bytes. -/
def view (b : Buffered) : Tokenizer :=
  ⟨b.codec, b.limit, b.buffer.length, b.start, b.slice, b.atEnd, b.finished⟩

/-- The first token of the unread bytes. Before the end nothing is looked for where there is
nothing. -/
def splitSlice (b : Buffered) : Except Codec.Fault (Option (Nat × Bytes)) :=
  if b.start < b.stop ∨ b.atEnd then b.codec.split b.slice b.atEnd else .ok none

/-- Moves the unread bytes to the front. -/
def shift (b : Buffered) : Buffered :=
  if b.start = 0 then b
  else
    { b with
      buffer := b.slice ++ b.buffer.drop (b.stop - b.start)
      start := 0
      stop := b.stop - b.start }

/-- Gives the buffer another size; new bytes are zero. -/
def resize (b : Buffered) (size : Nat) : Buffered :=
  { b with buffer := b.buffer.take size ++ List.replicate (size - b.buffer.length) 0 }

/-- Grows a buffer that is full, unless it has its largest size. -/
def grow (b : Buffered) : Option Buffered :=
  if b.stop = b.buffer.length then
    if b.limit ≤ b.buffer.length then none
    else some (b.resize (min (max (b.buffer.length * 2) Tokenizer.initialSize) b.limit))
  else some b

/-- Does what can be done with the bytes received. A read is offered what is behind them. -/
def poll (b : Buffered) : Tokenizer.Poll × Buffered :=
  if b.finished then (.ended, b)
  else
    match b.splitSlice with
    | .error fault => (.item (.error (.framing fault)), { b with finished := true })
    | .ok (some (n, token)) => (.item (.ok token), { b with start := b.start + n })
    | .ok none =>
      if b.atEnd then (.ended, { b with finished := true })
      else
        match b.shift.grow with
        | none =>
          (.item (.error (.framing (.tokenTooLong b.limit))), { b.shift with finished := true })
        | some b => (.wants (b.buffer.length - b.stop), b)

/-- Takes in what a read has put behind the unread bytes; nothing means the end of the stream. -/
def receive (b : Buffered) (bytes : Bytes) : Buffered :=
  if bytes = [] then { b with atEnd := true }
  else
    { b with
      buffer := b.buffer.take b.stop ++ bytes ++ b.buffer.drop (b.stop + bytes.length)
      stop := b.stop + bytes.length }

/-- The states through which a reader can come, whatever its reads yield. -/
inductive Visited (codec : Codec) (maxBuffer : Nat) : Buffered → Prop where
  | fresh : Visited codec maxBuffer (fresh codec maxBuffer)
  /-- It hands something out, ends, or is about to read. An interrupted read leaves it there. -/
  | polled {b : Buffered} (h : Visited codec maxBuffer b) : Visited codec maxBuffer b.poll.2
  /-- A read has yielded as many bytes as were offered room for, or less. -/
  | received {b b' : Buffered} {offered : Nat} {bytes : Bytes} (h : Visited codec maxBuffer b)
      (hpoll : b.poll = (.wants offered, b')) (hle : bytes.length ≤ offered) :
      Visited codec maxBuffer (b'.receive bytes)
  /-- A read has failed for good. -/
  | failed {b b' : Buffered} {offered : Nat} (h : Visited codec maxBuffer b)
      (hpoll : b.poll = (.wants offered, b')) : Visited codec maxBuffer { b' with finished := true }

/-- The positions are in order and within the buffer, and the buffer is within its limit. No token
that does not need the end of the stream is left behind when the stream ends or the reader does. -/
structure Sound (b : Buffered) : Prop where
  ordered : b.start ≤ b.stop
  within : b.stop ≤ b.buffer.length
  bounded : b.buffer.length ≤ b.limit
  positive : 0 < b.limit
  drained : b.atEnd = true → b.codec.split b.slice false = .ok none
  settled : b.finished = true → ∀ found, b.codec.split b.slice false ≠ .ok (some found)

/-- What one poll does. -/
inductive Polls (b : Buffered) : Prop where
  /-- Nothing, once it is finished. -/
  | idle (hfinished : b.finished = true) (hpoll : b.poll = (.ended, b))
  /-- A token is handed out. -/
  | token {n : Nat} {token : Bytes} (hfinished : b.finished = false)
      (hsplit : b.codec.split b.slice b.atEnd = .ok (some (n, token)))
      (hpoll : b.poll = (.item (.ok token), { b with start := b.start + n }))
  /-- The unread bytes are malformed. -/
  | fault {fault : Codec.Fault} (hfinished : b.finished = false)
      (hsplit : b.codec.split b.slice b.atEnd = .error fault)
      (hpoll : b.poll = (.item (.error (.framing fault)), { b with finished := true }))
  /-- The stream has ended, and so does it. -/
  | ended (hfinished : b.finished = false) (hend : b.atEnd = true)
      (hsplit : b.codec.split b.slice true = .ok none)
      (hpoll : b.poll = (.ended, { b with finished := true }))
  /-- The buffer can grow no more. -/
  | full {buffer : Bytes} (hfinished : b.finished = false) (hend : b.atEnd = false)
      (hsplit : b.codec.split b.slice false = .ok none)
      (hlength : buffer.length = b.buffer.length) (hfull : buffer.length = b.stop - b.start)
      (hlimit : b.limit ≤ buffer.length) (htake : buffer.take (b.stop - b.start) = b.slice)
      (hpoll : b.poll = (.item (.error (.framing (.tokenTooLong b.limit))),
        { b with buffer, start := 0, stop := b.stop - b.start, finished := true }))
  /-- There is room for more bytes behind the unread ones, which have moved to the front. -/
  | wants {buffer : Bytes} (hfinished : b.finished = false) (hend : b.atEnd = false)
      (hsplit : b.codec.split b.slice false = .ok none)
      (hlength : buffer.length =
        if b.stop - b.start < b.buffer.length then b.buffer.length else b.view.grownSize)
      (hroom : b.stop - b.start < buffer.length) (hlimit : buffer.length ≤ b.limit)
      (htake : buffer.take (b.stop - b.start) = b.slice)
      (hpoll : b.poll = (.wants (buffer.length - (b.stop - b.start)),
        { b with buffer, start := 0, stop := b.stop - b.start }))

section

variable {b b' : Buffered} {offered n : Nat} {bytes token : Bytes}

/-! ## The place of the bytes -/

/-- There are as many unread bytes as there are between the positions. -/
theorem Sound.length_slice (h : b.Sound) : b.slice.length = b.stop - b.start := by
  rw [slice, List.length_drop, List.length_take, Nat.min_eq_left h.within]

/-- Where the positions meet there are no unread bytes. -/
theorem Sound.slice_eq_nil_iff (h : b.Sound) : b.slice = [] ↔ b.stop ≤ b.start := by
  rw [← List.length_eq_zero_iff, h.length_slice]
  exact Nat.sub_eq_zero_iff_le

/-- Nothing is overlooked where nothing is looked for. -/
theorem Sound.splitSlice_eq (h : b.Sound) : b.splitSlice = b.codec.split b.slice b.atEnd := by
  rw [splitSlice]
  split
  · rfl
  · next hnone =>
    have hempty : b.slice = [] :=
      h.slice_eq_nil_iff.mpr (Nat.le_of_not_lt fun hlt ↦ hnone (.inl hlt))
    rw [hempty, Codec.split_nil]

/-- Bytes that are moved to the front are the same bytes, in a buffer of the same size. -/
theorem Sound.shift (h : b.Sound) : ∃ buffer,
    b.shift = { b with buffer, start := 0, stop := b.stop - b.start } ∧
      buffer.length = b.buffer.length ∧ buffer.take (b.stop - b.start) = b.slice := by
  have hlength := h.length_slice
  have hwithin := h.within
  by_cases hzero : b.start = 0
  · refine ⟨b.buffer, ?_, rfl, ?_⟩
    · rw [Buffered.shift, if_pos hzero, hzero]
      obtain ⟨codec, limit, buffer, start, stop, atEnd, finished⟩ := b
      cases hzero
      rfl
    · rw [slice, hzero]
      rfl
  · refine ⟨_, if_neg hzero, ?_, ?_⟩
    · rw [List.length_append, List.length_drop, hlength]
      omega
    · rw [← hlength, List.take_left]

/-- A buffer has the size that it is given. -/
theorem length_resize (b : Buffered) (size : Nat) : (b.resize size).buffer.length = size := by
  simp only [resize, List.length_append, List.length_take, List.length_replicate]
  omega

/-- A buffer that grows keeps its bytes. -/
theorem take_resize {size : Nat} (hstop : n ≤ b.buffer.length) (hsize : n ≤ size) :
    (b.resize size).buffer.take n = b.buffer.take n := by
  rw [resize, List.take_append_of_le_length, List.take_take, Nat.min_eq_left hsize]
  rw [List.length_take]
  omega

/-- Bytes that come after the unread ones are received behind them. -/
theorem slice_receive (hordered : b.start ≤ b.stop) (hwithin : b.stop ≤ b.buffer.length)
    (bytes : Bytes) : (b.receive bytes).slice = b.slice ++ bytes := by
  rw [receive]
  split
  · next hnone => rw [hnone, List.append_nil]; rfl
  · have hlength : (b.buffer.take b.stop ++ bytes).length = b.stop + bytes.length := by
      rw [List.length_append, List.length_take, Nat.min_eq_left hwithin]
    rw [slice, ← hlength, List.take_left, List.drop_append_of_le_length, slice]
    rw [List.length_take, Nat.min_eq_left hwithin]
    exact hordered

/-! ## One poll -/

/-- Where more bytes are needed a poll moves the unread ones to the front and makes room. -/
private theorem Sound.poll_of_more (h : b.Sound) (hfinished : b.finished = false)
    (hend : b.atEnd = false) (hsplit : b.codec.split b.slice false = .ok none) :
    b.poll =
      match b.shift.grow with
      | none =>
        (.item (.error (.framing (.tokenTooLong b.limit))), { b.shift with finished := true })
      | some b => (.wants (b.buffer.length - b.stop), b) := by
  have hsplit' : b.splitSlice = .ok none := by rw [h.splitSlice_eq, hend, hsplit]
  rw [Buffered.poll, if_neg (by simp [hfinished]), hsplit']
  exact if_neg (by simp [hend])

private theorem grownSize_within (hlimit : ¬b.limit ≤ b.buffer.length) :
    b.buffer.length < b.view.grownSize ∧ b.view.grownSize ≤ b.limit := by
  simp only [Tokenizer.grownSize, Tokenizer.initialSize, view]
  omega

private theorem Sound.polls_of_more (h : b.Sound) (hfinished : b.finished = false)
    (hend : b.atEnd = false) (hsplit : b.codec.split b.slice false = .ok none) : b.Polls := by
  obtain ⟨buffer, hshift, hlength, htake⟩ := h.shift
  have hwithin := h.within
  have hbounded := h.bounded
  have hpoll := h.poll_of_more hfinished hend hsplit
  by_cases hroom : b.stop - b.start < b.buffer.length
  · refine @Polls.wants b buffer hfinished hend hsplit (by rw [if_pos hroom, hlength])
      (by rwa [hlength]) (by rwa [hlength]) htake ?_
    have hgrow : b.shift.grow = some b.shift := by
      rw [grow, if_neg]
      rw [hshift]
      exact fun heq ↦ by simp only [hlength] at heq; omega
    rw [hpoll, hgrow, hshift]
  · have hfull : b.shift.stop = b.shift.buffer.length := by
      rw [hshift]
      dsimp only
      omega
    have hsize : b.shift.buffer.length = b.buffer.length := by rw [hshift, ← hlength]
    have hshiftLimit : b.shift.limit = b.limit := by rw [hshift]
    by_cases hlimit : b.limit ≤ b.buffer.length
    · refine @Polls.full b buffer hfinished hend hsplit hlength (by omega) (by omega) htake ?_
      have hgrow : b.shift.grow = none := by
        rw [grow, if_pos hfull, hsize, hshiftLimit, if_pos hlimit]
      rw [hpoll, hgrow, hshift]
    · have hgrow : b.shift.grow = some (b.shift.resize b.view.grownSize) := by
        rw [grow, if_pos hfull, hsize, hshiftLimit, if_neg hlimit]
        rfl
      obtain ⟨hmore, hmost⟩ := grownSize_within hlimit
      refine @Polls.wants b (b.shift.resize b.view.grownSize).buffer hfinished hend hsplit
        (by rw [length_resize, if_neg hroom]) (by rw [length_resize]; omega)
        (by rw [length_resize]; exact hmost) ?_ ?_
      · rw [take_resize (by rw [hsize]; omega) (by omega), hshift]
        exact htake
      · rw [hpoll, hgrow, hshift]
        rfl

/-- A poll does one of these things. -/
theorem Sound.polls (h : b.Sound) : b.Polls := by
  cases hfinished : b.finished with
  | true => exact .idle hfinished (by simp [poll, hfinished])
  | false =>
    have hsplit := h.splitSlice_eq
    cases hs : b.codec.split b.slice b.atEnd with
    | error fault =>
      rw [hs] at hsplit
      exact .fault hfinished hs (by simp [poll, hfinished, hsplit])
    | ok found =>
      rw [hs] at hsplit
      cases found with
      | some found => exact .token hfinished hs (by simp [poll, hfinished, hsplit])
      | none =>
        cases hend : b.atEnd with
        | true =>
          rw [hend] at hs
          exact .ended hfinished hend hs (by simp [poll, hfinished, hsplit, hend])
        | false =>
          rw [hend] at hs
          exact h.polls_of_more hfinished hend hs

/-! ## What stays -/

/-- The bytes behind a token. -/
theorem slice_advance (b : Buffered) (n : Nat) :
    { b with start := b.start + n }.slice = b.slice.drop n := by
  rw [slice, slice, List.drop_drop]

/-- Whatever a poll does leaves the reader sound. -/
theorem Sound.poll (h : b.Sound) : b.poll.2.Sound := by
  cases h.polls with
  | idle hfinished hpoll => rwa [hpoll]
  | @token n token hfinished hsplit hpoll =>
    have hconsumed := Codec.split_consumes hsplit
    have hlength := h.length_slice
    rw [hpoll]
    refine ⟨by dsimp only; omega, h.within, h.bounded, h.positive, fun hend ↦ ?_,
      fun hover ↦ absurd hover (by simp [hfinished])⟩
    -- At the end of the stream a token takes all there is.
    have hend : b.atEnd = true := hend
    rw [hend] at hsplit
    have hall := Codec.split_end_takes_all (h.drained hend) hsplit
    rw [slice_advance, hall, List.drop_length, Codec.split_nil]
  | fault hfinished hsplit hpoll =>
    rw [hpoll]
    refine ⟨h.ordered, h.within, h.bounded, h.positive, h.drained, fun _ found hfound ↦ ?_⟩
    cases hend : b.atEnd with
    | true => exact Codec.split_end_ne_error _ _ _ (hend ▸ hsplit)
    | false =>
      rw [hend] at hsplit
      cases hsplit.symm.trans hfound
  | ended hfinished hend hsplit hpoll =>
    rw [hpoll]
    exact ⟨h.ordered, h.within, h.bounded, h.positive, h.drained,
      fun _ found hfound ↦ by cases (h.drained hend).symm.trans hfound⟩
  | full hfinished hend hsplit hlength hfull hlimit htake hpoll =>
    rw [hpoll]
    have hbounded := h.bounded
    refine ⟨Nat.zero_le _, by dsimp only; omega, by dsimp only; omega, h.positive, fun _ ↦ ?_,
      fun _ found hfound ↦ ?_⟩
    · exact (congrArg (b.codec.split · false) htake).trans hsplit
    · cases hsplit.symm.trans ((congrArg (b.codec.split · false) htake).symm.trans hfound)
  | wants hfinished hend hsplit hlength hroom hlimit htake hpoll =>
    rw [hpoll]
    exact ⟨Nat.zero_le _, Nat.le_of_lt hroom, hlimit, h.positive,
      fun _ ↦ (congrArg (b.codec.split · false) htake).trans hsplit,
      fun hover ↦ absurd hover (by simp [hfinished])⟩

/-- Before a read the unread bytes are at the front, with room behind them, and more of them are
needed. -/
theorem Sound.poll_wants (h : b.Sound) (hpoll : b.poll = (.wants offered, b')) :
    0 < offered ∧ b'.stop + offered = b'.buffer.length ∧ b'.start = 0 ∧ b'.slice = b.slice ∧
      b'.codec.split b'.slice false = .ok none ∧ b'.atEnd = false ∧ b'.finished = false := by
  cases h.polls with
  | idle _ hdone => cases hdone.symm.trans hpoll
  | token _ _ hdone => cases hdone.symm.trans hpoll
  | fault _ _ hdone => cases hdone.symm.trans hpoll
  | ended _ _ _ hdone => cases hdone.symm.trans hpoll
  | full _ _ _ _ _ _ _ hdone => cases hdone.symm.trans hpoll
  | @wants buffer hfinished hend hsplit hlength hroom hlimit htake hdone =>
    cases hdone.symm.trans hpoll
    exact ⟨by omega, by dsimp only; omega, rfl, htake,
      (congrArg (b.codec.split · false) htake).trans hsplit, hend, hfinished⟩

/-- A buffer keeps its size where what is received fits. -/
theorem length_receive (hroom : b.stop + bytes.length ≤ b.buffer.length) :
    (b.receive bytes).buffer.length = b.buffer.length := by
  rw [receive]
  split
  · rfl
  · simp only [List.length_append, List.length_take, List.length_drop]
    omega

/-- Taking in what was read leaves a reader that needed more sound. -/
theorem Sound.receive (h : b.Sound) (hsplit : b.codec.split b.slice false = .ok none)
    (hfinished : b.finished = false) (hend : b.atEnd = false)
    (hroom : b.stop + bytes.length ≤ b.buffer.length) : (b.receive bytes).Sound := by
  have hlength := length_receive hroom
  by_cases hnone : bytes = []
  · rw [Buffered.receive, if_pos hnone]
    exact ⟨h.ordered, h.within, h.bounded, h.positive, fun _ ↦ hsplit,
      fun hover ↦ absurd hover (by simp [hfinished])⟩
  · have hordered := h.ordered
    have hbounded := h.bounded
    rw [Buffered.receive, if_neg hnone] at hlength ⊢
    exact ⟨by dsimp only; omega, hlength ▸ hroom, hlength ▸ hbounded, h.positive,
      fun hover ↦ absurd hover (by simp [hend]), fun hover ↦ absurd hover (by simp [hfinished])⟩

/-! ## The reader without the place of its bytes -/

private theorem poll_view (hfinished : b.finished = false) :
    b.view.poll =
      match b.codec.split b.slice b.atEnd with
      | .error fault => (.item (.error (.framing fault)), { b.view with finished := true })
      | .ok (some (n, token)) =>
        (.item (.ok token), { b.view with start := b.start + n, unread := b.slice.drop n })
      | .ok none =>
        if b.atEnd then (.ended, { b.view with finished := true }) else b.view.offer := by
  have hfinished : ¬b.view.finished = true := by simp [view, hfinished]
  rw [Tokenizer.poll, if_neg hfinished, Tokenizer.splitUnread_eq]
  rfl

theorem view_advance (b : Buffered) (n : Nat) :
    { b with start := b.start + n }.view =
      { b.view with start := b.start + n, unread := b.slice.drop n } := by
  rw [view, slice_advance]
  rfl

/-- Unread bytes that have moved to the front of another buffer are the same. -/
theorem view_moved {buffer : Bytes} {stop : Nat} (htake : buffer.take stop = b.slice)
    (finished : Bool) :
    { b with buffer, start := 0, stop, finished }.view =
      { b.view with start := 0, size := buffer.length, finished } := by
  simp only [view, slice, List.drop_zero, htake]

/-- A poll does the same where the bytes have no place. -/
theorem Sound.view_poll (h : b.Sound) : b.view.poll = (b.poll.1, b.poll.2.view) := by
  have hlength := h.length_slice
  cases h.polls with
  | idle hfinished hpoll =>
    rw [hpoll]
    exact if_pos hfinished
  | token hfinished hsplit hpoll => rw [hpoll, view_advance, poll_view hfinished, hsplit]
  | fault hfinished hsplit hpoll =>
    rw [hpoll, poll_view hfinished, hsplit]
    rfl
  | ended hfinished hend hsplit hpoll =>
    rw [← hend] at hsplit
    rw [hpoll, poll_view hfinished, hsplit]
    exact if_pos hend
  | @full buffer hfinished hend hsplit hsize hfull hlimit htake hpoll =>
    have hroom : ¬b.slice.length < b.buffer.length := by omega
    rw [hsize] at hlimit
    rw [← hend] at hsplit
    rw [hpoll, poll_view hfinished, hsplit, view_moved htake, hsize]
    dsimp only
    rw [hend, if_neg Bool.false_ne_true, Tokenizer.offer]
    exact (if_neg hroom).trans (if_pos hlimit)
  | @wants buffer hfinished hend hsplit hsize hroom hlimit htake hpoll =>
    rw [← hend] at hsplit
    rw [← hlength] at hsize hroom
    rw [hpoll, poll_view hfinished, hsplit, view_moved htake, ← hlength]
    dsimp only
    rw [hend, if_neg Bool.false_ne_true, Tokenizer.offer]
    by_cases hfits : b.slice.length < b.buffer.length
    · rw [hsize, if_pos hfits]
      exact if_pos hfits
    · rw [if_neg hfits] at hsize
      have hmore : ¬b.limit ≤ b.buffer.length := by
        intro hmost
        have hgrown : b.view.grownSize ≤ b.limit := Nat.min_le_right _ _
        omega
      rw [hsize]
      exact (if_neg hfits).trans (if_neg hmore)

/-- What is taken in is the same where the bytes have no place. -/
theorem Sound.view_receive (h : b.Sound) (hend : b.atEnd = false)
    (hroom : b.stop + bytes.length ≤ b.buffer.length) :
    (b.receive bytes).view = b.view.receive bytes := by
  have hslice := slice_receive h.ordered h.within bytes
  have hlength := length_receive hroom
  rw [view, hslice, hlength, Buffered.receive, Tokenizer.receive]
  cases bytes with
  | nil => rfl
  | cons first rest => simp [view, hend]

end

/-! ## The states that are visited -/

section

variable {codec : Codec} {maxBuffer : Nat} {b b' : Buffered} {offered : Nat}

/-- A sound reader with the delimiting and the limit that it was made with. -/
structure Invariant (codec : Codec) (maxBuffer : Nat) (b : Buffered) : Prop extends b.Sound where
  codec_eq : b.codec = codec
  limit_eq : b.limit = max maxBuffer 1

/-- A poll keeps the delimiting and the limit. -/
theorem Sound.poll_constants (h : b.Sound) :
    b.poll.2.codec = b.codec ∧ b.poll.2.limit = b.limit := by
  cases h.polls <;> simp only [*, and_self]

theorem Invariant.poll (h : b.Invariant codec maxBuffer) :
    b.poll.2.Invariant codec maxBuffer where
  toSound := h.toSound.poll
  codec_eq := h.toSound.poll_constants.1.trans h.codec_eq
  limit_eq := h.toSound.poll_constants.2.trans h.limit_eq

theorem receive_constants (b : Buffered) (bytes : Bytes) :
    (b.receive bytes).codec = b.codec ∧ (b.receive bytes).limit = b.limit := by
  rw [receive]
  split <;> exact ⟨rfl, rfl⟩

/-- Every state that is visited is sound. -/
theorem Visited.invariant (h : b.Visited codec maxBuffer) : b.Invariant codec maxBuffer := by
  induction h with
  | fresh =>
    exact ⟨⟨Nat.le_refl 0, Nat.le_refl 0, Nat.zero_le _, Nat.le_max_right ..,
      fun _ ↦ Codec.split_nil .., fun hover ↦ absurd hover Bool.false_ne_true⟩, rfl, rfl⟩
  | polled _ ih => exact ih.poll
  | @received b b' offered bytes _ hpoll hle ih =>
    obtain ⟨_, hroom, _, _, hsplit, hend, hfinished⟩ := ih.toSound.poll_wants hpoll
    have hsound : b'.Invariant codec maxBuffer := by simpa only [hpoll] using ih.poll
    obtain ⟨hcodec, hlimit⟩ := receive_constants b' bytes
    exact ⟨hsound.toSound.receive hsplit hfinished hend (by omega), hcodec.trans hsound.codec_eq,
      hlimit.trans hsound.limit_eq⟩
  | @failed b b' _ _ hpoll ih =>
    obtain ⟨_, _, _, _, hsplit, hend, _⟩ := ih.toSound.poll_wants hpoll
    have hsound : b'.Invariant codec maxBuffer := by simpa only [hpoll] using ih.poll
    exact ⟨⟨hsound.ordered, hsound.within, hsound.bounded, hsound.positive, hsound.drained,
      fun _ found hfound ↦ by cases hsplit.symm.trans hfound⟩, hsound.codec_eq, hsound.limit_eq⟩

/-- What a source yields fits into what it is offered. -/
theorem length_le_of_read {source source' : Source} {bytes : Bytes} (hpos : 0 < offered)
    (hread : source.read offered = (.ok bytes, source')) : bytes.length ≤ offered := by
  have hreads := source.reads_read hpos
  rw [hread] at hreads
  cases hreads with
  | bytes _ hle => exact hle
  | ended => exact Nat.zero_le offered

/-- Where a `Tokenizer` is about to read, so is the reader with its buffer. -/
theorem Sound.wants_of_view (h : b.Sound) {r : Tokenizer}
    (hview : b.view.poll = (.wants offered, r)) :
    ∃ b', b.poll = (.wants offered, b') ∧ b'.view = r := by
  obtain ⟨hpoll, hview⟩ := Prod.mk.inj (h.view_poll.symm.trans hview)
  exact ⟨b.poll.2, Prod.ext hpoll rfl, hview⟩

/-- Calling for the next item takes a reader from a visited state to a visited state. -/
theorem Visited.next (h : b.Visited codec maxBuffer) (source : Source) :
    ∃ b' : Buffered, b'.Visited codec maxBuffer ∧ b'.view = (b.view.next source).2.1 := by
  induction hr : b.view, source using Tokenizer.next.induct generalizing b with
  | case1 r source item r' hp =>
    cases hr
    rw [Tokenizer.next_of_poll_item hp]
    exact ⟨b.poll.2, h.polled, congrArg Prod.snd (h.invariant.view_poll.symm.trans hp)⟩
  | case2 r source r' hp =>
    cases hr
    rw [Tokenizer.next_of_poll_ended hp]
    exact ⟨b.poll.2, h.polled, congrArg Prod.snd (h.invariant.view_poll.symm.trans hp)⟩
  | case3 r source offered r' hp bytes source' hread ih =>
    cases hr
    obtain ⟨b', hpoll, hview⟩ := h.invariant.wants_of_view hp
    obtain ⟨hpos, hroom, _, _, _, hend, _⟩ := h.invariant.poll_wants hpoll
    have hle := length_le_of_read hpos hread
    have hsound : b'.Sound := by simpa only [hpoll] using h.invariant.poll.toSound
    rw [Tokenizer.next_of_read_ok hp hread]
    exact ih (h.received hpoll hle) (by rw [hsound.view_receive hend (by omega), hview])
  | case4 r source offered r' hp fault source' hread hkind ih =>
    cases hr
    obtain ⟨b', hpoll, hview⟩ := h.invariant.wants_of_view hp
    rw [Tokenizer.next_of_read_error hp hread, if_pos hkind]
    have hb' : b'.Visited codec maxBuffer := by simpa only [hpoll] using h.polled
    exact ih hb' hview
  | case5 r source offered r' hp fault source' hread hkind =>
    cases hr
    obtain ⟨b', hpoll, hview⟩ := h.invariant.wants_of_view hp
    rw [Tokenizer.next_of_read_error hp hread, if_neg hkind]
    exact ⟨_, h.failed hpoll, by rw [← hview]; rfl⟩

/-- In every state that a reader visits its positions are in order and its buffer is within its
limit. When it reads, the unread bytes are at the front, there is room behind them, so that a read
of nothing is the end of the stream, and they have neither a token in them nor anything wrong. A
token whose bytes have all been read is handed out without another read. And the states that a
`Tokenizer` goes through are these, without the place of the bytes. -/
theorem Visited.reads_only_for_more (h : b.Visited codec maxBuffer) :
    (b.start ≤ b.stop ∧ b.stop ≤ b.buffer.length ∧ b.buffer.length ≤ max maxBuffer 1) ∧
      (∀ offered b', b.poll = (.wants offered, b') →
        0 < offered ∧ b'.stop + offered = b'.buffer.length ∧ b'.start = 0 ∧ b'.slice = b.slice ∧
          codec.split b'.slice false = .ok none) ∧
      (∀ n token, codec.split b.slice false = .ok (some (n, token)) → ∀ source,
        b.view.next source =
          (some (.ok token), { b with start := b.start + n }.view, source)) ∧
      b.view.poll = (b.poll.1, b.poll.2.view) ∧
      ∀ source, ∃ b' : Buffered, b'.Visited codec maxBuffer ∧
        b'.view = (b.view.next source).2.1 := by
  have hinv := h.invariant
  have hcodec := hinv.codec_eq
  refine ⟨⟨hinv.ordered, hinv.within, hinv.limit_eq ▸ hinv.bounded⟩, fun offered b' hpoll ↦ ?_,
    fun n token hsplit source ↦ ?_, hinv.view_poll, h.next⟩
  · obtain ⟨hpos, hroom, hstart, hslice, hmore, _⟩ := hinv.poll_wants hpoll
    have hcodec' : b'.codec = codec := by simpa only [hpoll] using hinv.poll.codec_eq
    exact ⟨hpos, hroom, hstart, hslice, hcodec' ▸ hmore⟩
  · rw [← hcodec] at hsplit
    -- A token that does not need the end is not left behind when the stream or the reader ends.
    have hend : b.atEnd = false := by
      cases hend : b.atEnd with
      | false => rfl
      | true => cases (hinv.drained hend).symm.trans hsplit
    have hfinished : b.finished = false := by
      cases hfinished : b.finished with
      | false => rfl
      | true => exact absurd hsplit (hinv.settled hfinished _)
    refine Tokenizer.next_of_poll_item ?_
    rw [view_advance, poll_view hfinished, hend, hsplit]

/-- A reader of lines has read a line and the beginning of another one, into a buffer of at most
five bytes: the line comes without a read, and the next read is offered the four bytes behind what
is left, which has moved to the front. -/
theorem reads_only_for_more_lines :
    ∃ b : Buffered, b.Visited .lines 5 ∧ b.slice = [0x61, 0x62, 0x0a, 0x63] ∧
      (∀ source, (b.view.next source).1 = some (.ok [0x61, 0x62])) ∧
      (b.poll.2.poll.2.start, b.poll.2.poll.2.stop, b.poll.2.poll.2.buffer.length) = (0, 1, 5) := by
  have hfresh : (fresh .lines 5).poll =
      (.wants 5, ⟨.lines, 5, [0, 0, 0, 0, 0], 0, 0, false, false⟩) := rfl
  have hvisited := Visited.fresh.received hfresh
    (show ([0x61, 0x62, 0x0a, 0x63] : Bytes).length ≤ 5 by decide)
  refine ⟨_, hvisited, rfl, fun source ↦ ?_, rfl⟩
  have htoken := hvisited.reads_only_for_more.2.2.1 3 [0x61, 0x62] rfl source
  rw [htoken]

end

end Buffered

end Sidecar
