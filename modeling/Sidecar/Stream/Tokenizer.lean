import Sidecar.Codec.Consume
import Sidecar.Stream.Source

/-!
# Reading tokens from a stream

A tokenizer is a reader of frames. It keeps the bytes received and not yet handed out in a buffer
that is grown only when it is full, and never beyond a limit. `poll` does what can be done without
new bytes: hand out a token, end, or name the length of the slice that the next read is offered.
`next` alternates between polling and reading a source. After the first failure, or the end of the
stream, nothing more comes.

`weight_next` says that each item handed out uses something up, which bounds the number of items
and lets `items` collect them all.
-/

namespace Sidecar

/-- A reader of tokens. -/
structure Tokenizer where
  /-- How tokens are delimited. -/
  codec : Codec
  /-- The largest size of the buffer, at least one. -/
  limit : Nat
  /-- The present size of the buffer. -/
  size : Nat
  /-- Where in the buffer the unread bytes begin. -/
  start : Nat
  /-- The bytes received and not yet handed out. -/
  unread : Bytes
  /-- Whether the stream has ended. -/
  atEnd : Bool
  /-- Whether nothing more will be handed out. -/
  finished : Bool
  deriving DecidableEq, Repr

namespace Tokenizer

/-- A token, or the failure that ends the stream. -/
abbrev Item := Except Failure Bytes

/-- The size that a buffer is first given, unless the limit is smaller. -/
def initialSize : Nat := 4096

/-- A reader that has received nothing. -/
def fresh (codec : Codec) (maxBuffer : Nat) : Tokenizer :=
  ⟨codec, max maxBuffer 1, 0, 0, [], false, false⟩

/-- What a reader does next. -/
inductive Poll where
  /-- Hands out a token or a failure. -/
  | item (item : Item)
  /-- Reports the end. -/
  | ended
  /-- Offers a slice of this length to the source. -/
  | wants (offered : Nat)

/-- The first token of the unread bytes. Nothing is looked for where there is nothing. -/
def splitUnread (r : Tokenizer) : Except Codec.Fault (Option (Nat × Bytes)) :=
  if r.unread = [] ∧ r.atEnd = false then .ok none else r.codec.split r.unread r.atEnd

/-- The size of the buffer after it was found full. -/
def grownSize (r : Tokenizer) : Nat := min (max (r.size * 2) initialSize) r.limit

/-- Makes room for a read: the unread bytes move to the front, and a full buffer grows. -/
def offer (r : Tokenizer) : Poll × Tokenizer :=
  let r := { r with start := 0 }
  if r.unread.length < r.size then (.wants (r.size - r.unread.length), r)
  else if r.limit ≤ r.size then
    (.item (.error (.framing (.tokenTooLong r.limit))), { r with finished := true })
  else (.wants (r.grownSize - r.unread.length), { r with size := r.grownSize })

/-- Does what can be done with the bytes received. -/
def poll (r : Tokenizer) : Poll × Tokenizer :=
  if r.finished then (.ended, r)
  else
    match r.splitUnread with
    | .error fault => (.item (.error (.framing fault)), { r with finished := true })
    | .ok (some (n, token)) =>
      (.item (.ok token), { r with start := r.start + n, unread := r.unread.drop n })
    | .ok none => if r.atEnd then (.ended, { r with finished := true }) else r.offer

/-- Takes in what a read yielded; nothing means the end of the stream. -/
def receive (r : Tokenizer) (bytes : Bytes) : Tokenizer :=
  { r with unread := r.unread ++ bytes, atEnd := bytes.isEmpty }

/-- A reader that wants bytes has not seen the end of the stream, is not finished, and keeps its
unread bytes. -/
theorem poll_wants {r r' : Tokenizer} {offered : Nat} (h : r.poll = (.wants offered, r')) :
    r.atEnd = false ∧ r.finished = false ∧ r'.atEnd = false ∧ r'.finished = false ∧
      r'.unread = r.unread := by
  unfold poll at h
  split at h
  · simp at h
  · next hf =>
    split at h
    · simp at h
    · simp at h
    · split at h
      · simp at h
      · next he =>
        simp only [offer] at h
        split at h
        · simp only [Prod.mk.injEq] at h
          simp_all [← h.2]
        · split at h
          · simp at h
          · simp only [Prod.mk.injEq] at h
            simp_all [← h.2]

/-- The next item, or nothing at the end. An interrupted read is tried again. -/
def next (r : Tokenizer) (source : Source) : Option Item × Tokenizer × Source :=
  match _h : r.poll with
  | (.item item, r) => (some item, r, source)
  | (.ended, r) => (none, r, source)
  | (.wants offered, r') =>
    match _hr : source.read offered with
    | (.ok bytes, source') => (r'.receive bytes).next source'
    | (.error fault, source') =>
      if fault.kind = .interrupted then r'.next source'
      else (some (.error (.io fault)), { r' with finished := true }, source')
termination_by if r.atEnd then 0 else source.remaining + 1
decreasing_by
  · obtain ⟨h1, -, -, -, -⟩ := poll_wants _h
    have := @Source.remaining_read_of_ok source offered bytes
      (by rw [_hr])
    rw [_hr] at this
    simp only [receive, h1]
    cases bytes with
    | nil => simp
    | cons b rest => simp at this ⊢; omega
  · obtain ⟨h1, -, h3, -, -⟩ := poll_wants _h
    have := @Source.remaining_read_of_error source offered fault
      (by rw [_hr])
    rw [_hr] at this
    simp [h1, h3]
    omega

/-- What a reader and its source have left to use up. -/
def weight (r : Tokenizer) (source : Source) : Nat :=
  if r.finished then 0 else r.unread.length + source.remaining + 1

private theorem weight_poll_item {r r' : Tokenizer} {item : Item} {source : Source}
    (h : r.poll = (.item item, r')) : r'.weight source < r.weight source := by
  unfold poll at h
  split at h
  · simp at h
  · next hf =>
    split at h
    · simp only [Prod.mk.injEq] at h
      simp [← h.2, weight, hf]
    · next n token hs =>
      simp only [Prod.mk.injEq] at h
      have hc : 0 < n ∧ n ≤ r.unread.length := by
        unfold splitUnread at hs
        split at hs
        · simp at hs
        · exact Codec.split_consumes hs
      simp [← h.2, weight, hf]
      omega
    · split at h
      · simp at h
      · simp only [offer] at h
        split at h
        · simp at h
        · split at h
          · simp only [Prod.mk.injEq] at h
            simp [← h.2, weight, hf]
          · simp at h

/-- An item at hand is the next one. -/
theorem next_of_poll_item {r r' : Tokenizer} {source : Source} {item : Item}
    (h : r.poll = (.item item, r')) : r.next source = (some item, r', source) := by
  rw [next]
  split <;> simp_all

/-- At the end nothing comes next. -/
theorem next_of_poll_ended {r r' : Tokenizer} {source : Source}
    (h : r.poll = (.ended, r')) : r.next source = (none, r', source) := by
  rw [next]
  split <;> simp_all

/-- Bytes that a read yields are taken in. -/
theorem next_of_read_ok {r r' : Tokenizer} {source source' : Source} {offered : Nat}
    {bytes : Bytes} (h : r.poll = (.wants offered, r'))
    (hr : source.read offered = (.ok bytes, source')) :
    r.next source = (r'.receive bytes).next source' := by
  rw [next]
  split <;> simp_all
  split <;> simp_all

/-- A read that fails is tried again when it was interrupted, and else is the last item. -/
theorem next_of_read_error {r r' : Tokenizer} {source source' : Source} {offered : Nat}
    {fault : IoFault} (h : r.poll = (.wants offered, r'))
    (hr : source.read offered = (.error fault, source')) :
    r.next source =
      if fault.kind = .interrupted then r'.next source'
      else (some (.error (.io fault)), { r' with finished := true }, source') := by
  rw [next]
  split <;> simp_all
  split <;> simp_all

/-- Each item handed out uses something up. -/
theorem weight_next {r : Tokenizer} {source : Source} {item : Item}
    (h : (r.next source).1 = some item) :
    (r.next source).2.1.weight (r.next source).2.2 < r.weight source := by
  induction r, source using next.induct with
  | case1 r source item' r' hp =>
    rw [next_of_poll_item hp]
    exact weight_poll_item hp
  | case2 r source r' hp => simp [next_of_poll_ended hp] at h
  | case3 r source offered r' hp bytes source' hr ih =>
    rw [next_of_read_ok hp hr] at h ⊢
    refine Nat.lt_of_lt_of_le (ih h) ?_
    obtain ⟨-, h2, -, h4, h5⟩ := poll_wants hp
    have := @Source.remaining_read_of_ok source offered bytes
      (by rw [hr])
    rw [hr] at this
    simp [weight, receive, h2, h4, h5] at this ⊢
    omega
  | case4 r source offered r' hp fault source' hr hk ih =>
    rw [next_of_read_error hp hr, if_pos hk] at h ⊢
    refine Nat.lt_of_lt_of_le (ih h) ?_
    obtain ⟨-, h2, -, h4, h5⟩ := poll_wants hp
    have := @Source.remaining_read_of_error source offered fault
      (by rw [hr])
    rw [hr] at this
    simp [weight, h2, h4, h5] at this ⊢
    omega
  | case5 r source offered r' hp fault source' hr hk =>
    obtain ⟨-, h2, -, -, -⟩ := poll_wants hp
    rw [next_of_read_error hp hr, if_neg hk]
    simp [weight, h2]

/-- All items up to the end, and the reader and source after them. -/
def items (r : Tokenizer) (source : Source) : List Item × Tokenizer × Source :=
  match _h : r.next source with
  | (none, r', source') => ([], r', source')
  | (some item, r', source') =>
    let (rest, last) := r'.items source'
    (item :: rest, last)
termination_by r.weight source
decreasing_by
  have := @weight_next r source item (by rw [_h])
  rwa [_h] at this

end Tokenizer
end Sidecar
