import Sidecar.Proofs.Stream.Decode
import Sidecar.Proofs.Stream.Served

/-!
# Reading does not depend on the reads

A tokenizer sees a stream piece by piece, and which pieces it sees is up to the source. Its items
are those of `Codec.decode`, which looks at the stream as a whole: two sources that serve the same
bytes and end alike make the same items.

The unread bytes lie in a buffer that stays within the limit (`WellFormed`), and together with the
bytes that the source still serves they are what is left of the stream. `Polls` says what a reader
that can still read does with them.
-/

namespace Sidecar.Tokenizer

/-- The unread bytes lie within the buffer, and the buffer within its limit. -/
structure WellFormed (r : Tokenizer) : Prop where
  within : r.start + r.unread.length ≤ r.size
  bounded : r.size ≤ r.limit
  positive : 0 < r.limit

/-- A reader that has not met the end of its stream. -/
structure Reading (r : Tokenizer) : Prop extends r.WellFormed where
  unfinished : r.finished = false
  ongoing : r.atEnd = false

/-- What a reader that can still read does next. -/
inductive Polls (r : Tokenizer) : Prop where
  /-- A token is handed out. -/
  | token {n : Nat} {token : Bytes} (hsplit : r.codec.split r.unread false = .ok (some (n, token)))
      (hpoll : r.poll =
        (.item (.ok token), { r with start := r.start + n, unread := r.unread.drop n }))
  /-- The unread bytes are malformed. -/
  | fault {fault : Codec.Fault} (hsplit : r.codec.split r.unread false = .error fault)
      (hpoll : r.poll = (.item (.error (.framing fault)), { r with finished := true }))
  /-- The buffer can grow no more. -/
  | full (hsplit : r.codec.split r.unread false = .ok none) (hfull : r.unread.length = r.limit)
      (hpoll : r.poll = (.item (.error (.framing (.tokenTooLong r.limit))),
        { r with start := 0, finished := true }))
  /-- There is room for more bytes. -/
  | wants {size : Nat} (hsplit : r.codec.split r.unread false = .ok none)
      (hroom : r.unread.length < size) (hsize : size ≤ r.limit)
      (hpoll : r.poll = (.wants (size - r.unread.length), { r with start := 0, size }))

/-- Splitting the unread bytes of a reader is splitting them, as nothing is split off nothing. -/
theorem splitUnread_eq (r : Tokenizer) : r.splitUnread = r.codec.split r.unread r.atEnd := by
  unfold splitUnread
  split
  · next h => rw [h.1, Codec.split_nil]
  · rfl

/-- A reader that can still read does one of these things. -/
theorem Reading.polls {r : Tokenizer} (h : r.Reading) : r.Polls := by
  have hsplit : r.splitUnread = r.codec.split r.unread false := by
    rw [splitUnread_eq, h.ongoing]
  cases hs : r.codec.split r.unread false with
  | error fault => exact .fault hs (by simp [poll, hsplit, hs, h.unfinished])
  | ok found =>
    cases found with
    | some found => exact .token hs (by simp [poll, hsplit, hs, h.unfinished])
    | none =>
      have hpoll : r.poll = r.offer := by simp [poll, hsplit, hs, h.unfinished, h.ongoing]
      have hwithin := h.within
      have hbounded := h.bounded
      by_cases hroom : r.unread.length < r.size
      · exact .wants hs hroom h.bounded (by simp [hpoll, offer, hroom])
      · by_cases hfull : r.limit ≤ r.size
        · exact .full hs (by omega) (by simp [hpoll, offer, hroom, hfull])
        · have hgrown : r.unread.length < r.grownSize := by
            unfold grownSize initialSize
            omega
          refine .wants hs hgrown (Nat.min_le_right ..) ?_
          simp only [hpoll, offer, hroom, if_false, hfull]
          rfl

/-! ## One item at a time -/

/-- An item at hand comes before the others. -/
theorem items_of_item {r r' : Tokenizer} {item : Item} (h : r.poll = (.item item, r'))
    (source : Source) :
    r.items source = (item :: (r'.items source).1, (r'.items source).2) := by
  rw [items]
  split <;> simp_all [next_of_poll_item h]

/-- A reader at its end has no items. -/
theorem items_of_ended {r r' : Tokenizer} (h : r.poll = (.ended, r')) (source : Source) :
    r.items source = ([], r', source) := by
  rw [items]
  split <;> simp_all [next_of_poll_ended h]

/-- A reader that is finished has no items. -/
theorem items_of_finished {r : Tokenizer} (h : r.finished = true) (source : Source) :
    r.items source = ([], r, source) :=
  items_of_ended (by simp [poll, h]) source

/-- A failure comes last. -/
theorem items_of_last {r r' : Tokenizer} {item : Item} (h : r.poll = (.item item, r'))
    (hf : r'.finished = true) (source : Source) : r.items source = ([item], r', source) := by
  rw [items_of_item h, items_of_finished hf]

/-- The items after a read are those of the reader that has taken the bytes in. -/
theorem items_of_read_ok {r r' : Tokenizer} {source source' : Source} {offered : Nat}
    {bytes : Bytes} (h : r.poll = (.wants offered, r'))
    (hr : source.read offered = (.ok bytes, source')) :
    r.items source = (r'.receive bytes).items source' := by
  rw [items, items.eq_def (r'.receive bytes), next_of_read_ok h hr]

/-- An interrupted read makes no item. -/
theorem items_of_interrupted {r r' : Tokenizer} {source source' : Source} {offered : Nat}
    {fault : IoFault} (h : r.poll = (.wants offered, r'))
    (hr : source.read offered = (.error fault, source')) (hkind : fault.kind = .interrupted) :
    r.items source = r'.items source' := by
  rw [items, items.eq_def r', next_of_read_error h hr, if_pos hkind]

/-- A read that fails makes the last item. -/
theorem items_of_failed {r r' : Tokenizer} {source source' : Source} {offered : Nat}
    {fault : IoFault} (h : r.poll = (.wants offered, r'))
    (hr : source.read offered = (.error fault, source')) (hkind : fault.kind ≠ .interrupted) :
    r.items source = ([.error (.io fault)], { r' with finished := true }, source') := by
  rw [items, next_of_read_error h hr, if_neg hkind]
  dsimp only
  rw [items_of_finished rfl]

/-! ## All items -/

/-- At the end of the stream the unread bytes are concluded. -/
theorem items_of_atEnd {r : Tokenizer} (hf : r.finished = false) (he : r.atEnd = true)
    (hmore : r.codec.split r.unread false = .ok none) (hroom : r.unread.length < r.limit)
    (source : Source) :
    (r.items source).1 = r.codec.conclude r.limit none r.unread ∧
      (r.items source).2.1.finished = true := by
  have hsplit : r.splitUnread = r.codec.split r.unread true := by rw [splitUnread_eq, he]
  have hconclude : ¬ r.limit ≤ r.unread.length := Nat.not_le_of_lt hroom
  cases hs : r.codec.split r.unread true with
  | error fault => exact absurd hs (Codec.split_end_ne_error r.codec r.unread fault)
  | ok found =>
    cases found with
    | none =>
      rw [items_of_ended (by simp only [poll, hf, hsplit, hs, he]; rfl)]
      simp [Codec.conclude, hconclude, hs]
    | some found =>
      obtain ⟨n, token⟩ := found
      have hn := Codec.split_end_takes_all hmore hs
      -- The token takes all there is, so the next poll finds nothing.
      have hempty : r.unread.drop n = [] := by rw [hn, List.drop_length]
      have hpoll : r.poll = (.item (.ok token), { r with start := r.start + n, unread := [] }) := by
        simp [poll, hf, hsplit, hs, hempty]
      have hlast : ({ r with start := r.start + n, unread := [] } : Tokenizer).poll =
          (.ended, { r with start := r.start + n, unread := [], finished := true }) := by
        simp [poll, hf, splitUnread_eq, he, Codec.split_nil]
      rw [items_of_item hpoll, items_of_ended hlast]
      simp [Codec.conclude, hconclude, hs]

/-- The items are those of the unread bytes and of the bytes that the source still serves. -/
theorem Reading.items_eq {r : Tokenizer} (h : r.Reading) (source : Source) :
    (r.items source).1 =
        r.codec.decode r.limit source.ending (r.unread ++ source.stream) ∧
      (r.items source).2.1.finished = true := by
  have hlimit : r.unread.length ≤ r.limit := by
    have := h.within
    have := h.bounded
    omega
  cases h.polls with
  | @token n token hsplit hpoll =>
    have hn := Codec.split_consumes hsplit
    have hnext : Reading { r with start := r.start + n, unread := r.unread.drop n } := by
      refine ⟨⟨?_, h.bounded, h.positive⟩, h.unfinished, h.ongoing⟩
      have := h.within
      simp only [List.length_drop]
      omega
    have ih := hnext.items_eq source
    rw [items_of_item hpoll, Codec.decode_append_of_token hlimit hsplit]
    exact ⟨congrArg _ ih.1, ih.2⟩
  | fault hsplit hpoll =>
    rw [items_of_last hpoll rfl, Codec.decode_append_of_fault hlimit hsplit]
    exact ⟨rfl, rfl⟩
  | full hsplit hfull hpoll =>
    rw [items_of_last hpoll rfl, Codec.decode_append_of_full hfull hsplit]
    exact ⟨rfl, rfl⟩
  | @wants size hsplit hroom hsize hpoll =>
    have hreads := source.reads_read (Nat.sub_pos_of_lt hroom)
    rcases hr : source.read (size - r.unread.length) with ⟨result, source'⟩
    rw [hr] at hreads
    have hwaits : Reading { r with start := 0, size } := by
      refine ⟨⟨?_, hsize, h.positive⟩, h.unfinished, h.ongoing⟩
      dsimp only
      omega
    cases hreads with
    | @bytes got _ hne hle hstream hending =>
      have hnext : Reading (receive { r with start := 0, size } got) := by
        refine ⟨⟨?_, hsize, h.positive⟩, h.unfinished, List.isEmpty_eq_false_iff.mpr hne⟩
        simp only [receive, List.length_append]
        omega
      have ih := hnext.items_eq source'
      rw [items_of_read_ok hpoll hr, hstream, ← List.append_assoc, ← hending]
      exact ih
    | ended hstream hending =>
      rw [items_of_read_ok hpoll hr, hstream, hending, List.append_nil,
        Codec.decode_of_room (Nat.lt_of_lt_of_le hroom hsize) hsplit]
      have hkept : (receive { r with start := 0, size } []).unread = r.unread := List.append_nil _
      have hend := items_of_atEnd (r := receive { r with start := 0, size } []) h.unfinished rfl
        (by rw [hkept]; exact hsplit) (by rw [hkept]; exact Nat.lt_of_lt_of_le hroom hsize) source'
      rw [hkept] at hend
      exact hend
    | interrupted hkind hstream hending =>
      have ih := hwaits.items_eq source'
      rw [items_of_interrupted hpoll hr hkind, ← hstream, ← hending]
      exact ih
    | failed hkind hstream hending =>
      rw [items_of_failed hpoll hr hkind, hstream, hending, List.append_nil,
        Codec.decode_of_room (Nat.lt_of_lt_of_le hroom hsize) hsplit]
      unfold Codec.conclude
      rw [if_neg (by omega)]
      exact ⟨rfl, rfl⟩
termination_by (source.remaining, r.unread.length)
decreasing_by
  · right
    simp only [List.length_drop]
    omega
  · left
    have hless := @Source.remaining_read_of_ok source (size - r.unread.length) got (by rw [hr])
    have hgot := List.length_pos_iff.mpr hne
    rw [hr] at hless
    dsimp only at hless
    omega
  · left
    have hless := @Source.remaining_read_of_error source (size - r.unread.length) _ (by rw [hr])
    rw [hr] at hless
    exact hless

/-- A reader that has received nothing can read. -/
theorem reading_fresh (codec : Codec) (maxBuffer : Nat) : (fresh codec maxBuffer).Reading where
  within := Nat.le_refl 0
  bounded := Nat.zero_le _
  positive := Nat.le_max_right ..
  unfinished := rfl
  ongoing := rfl

/-- A reader that is finished has no next item, whatever it is offered. -/
theorem next_of_finished {r : Tokenizer} (h : r.finished = true) (source : Source) :
    r.next source = (none, r, source) :=
  next_of_poll_ended (by simp [poll, h])

/-- The items that a fresh reader makes of a source are those of the stream that the source serves,
in however many reads, and after them there is nothing more. -/
theorem items_eq_decode (codec : Codec) (maxBuffer : Nat) (source : Source) :
    ((fresh codec maxBuffer).items source).1 =
        codec.decode (max maxBuffer 1) source.ending source.stream ∧
      ∀ later : Source, (((fresh codec maxBuffer).items source).2.1.next later).1 = none := by
  have h := (reading_fresh codec maxBuffer).items_eq source
  refine ⟨h.1, fun later ↦ ?_⟩
  rw [next_of_finished h.2]

end Sidecar.Tokenizer
