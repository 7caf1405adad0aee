import Sidecar.Proofs.Codec.Netstring
import Sidecar.Proofs.Stream.Buffer
import Sidecar.Proofs.Stream.Lines

/-!
# The growth of a buffer

A full buffer doubles its size, up to its limit. Its bytes lie in a vector, which at least doubles
its capacity where it has to grow. Sizes are 64-bit words and capacities at most `Codec.maxExtent`;
`grownInWords?` is a growth in which both are checked.

A buffer below its limit fills its vector (`Sized.eq_of_lt`), so that a growth is out of range from
2^62 bytes on, `growthEnd`, and not before (`Sized.grownInWords?_eq`). A line that is long enough
comes there whenever the limit allows it (`contained_lines_iff`).
-/

namespace Sidecar.Buffered

/-- The size that a full buffer below its limit grows to. -/
def grownSize (limit size : Nat) : Nat := min (max (size * 2) Tokenizer.initialSize) limit

/-- The capacity of a vector once it holds so many bytes. Where they do not fit it at least doubles,
and it is never as small as a few bytes. -/
def enlarged (capacity needed : Nat) : Nat :=
  if needed ≤ capacity then capacity else max (max (capacity * 2) needed) 8

/-- The size and the capacity after a growth, unless one of them is out of range. -/
def grownInWords? (limit size capacity : Nat) : Option (Nat × Nat) := do
  let doubled ← Codec.wordProduct? size 2
  let grown := min (max doubled Tokenizer.initialSize) limit
  let capacity := enlarged capacity grown
  if capacity ≤ Codec.maxExtent then some (grown, capacity) else none

/-- The sizes that a buffer has, one after the other, and the capacities of its vector. -/
inductive Sized (limit : Nat) : Nat → Nat → Prop where
  | empty : Sized limit 0 0
  | grown {size capacity : Nat} (h : Sized limit size capacity) (hlt : size < limit) :
      Sized limit (grownSize limit size) (enlarged capacity (grownSize limit size))

/-- The size of 2^62 bytes, from which on a buffer cannot grow. -/
def growthEnd : Nat := 0x4000_0000_0000_0000

/-- The first size of a buffer, doubled so many times. -/
def doublings : Nat → Nat
  | 0 => Tokenizer.initialSize
  | k + 1 => doublings k * 2

/-- Whether the buffer of a reader grows before its next read. -/
def Grows (b : Buffered) : Prop := b.buffer.length < b.poll.2.buffer.length

/-- Whatever a reader is given to read, its buffer grows in range. -/
def Contained (codec : Codec) (maxBuffer : Nat) : Prop :=
  ∀ b : Buffered, b.Visited codec maxBuffer → b.Grows → ∃ capacity capacity',
    Sized b.limit b.buffer.length capacity ∧
      grownInWords? b.limit b.buffer.length capacity = some (b.poll.2.buffer.length, capacity')

variable {b : Buffered} {codec : Codec} {limit maxBuffer size capacity : Nat}

/-! ## Sizes and capacities -/

/-- A buffer below its limit becomes larger. -/
theorem lt_grownSize (hlt : size < limit) : size < grownSize limit size := by
  unfold grownSize Tokenizer.initialSize
  omega

/-- Doublings are no smaller than the first size. -/
theorem initialSize_le_doublings (k : Nat) : Tokenizer.initialSize ≤ doublings k := by
  induction k with
  | zero => exact Nat.le_refl _
  | succ k ih => exact Nat.le_trans ih (Nat.le_mul_of_pos_right _ Nat.zero_lt_two)

/-- A buffer below its limit fills its vector. -/
theorem Sized.eq_of_lt (h : Sized limit size capacity) (hlt : size < limit) : capacity = size := by
  induction h with
  | empty => rfl
  | @grown size capacity _ hsize ih =>
    have hcapacity := ih hsize
    -- A size below the limit is a doubled one, and the vector has doubled with it.
    unfold enlarged
    unfold grownSize Tokenizer.initialSize at hlt ⊢
    split <;> omega

/-- A growth is out of range from some size on, and not before. -/
theorem Sized.grownInWords?_eq (h : Sized limit size capacity) (hlt : size < limit) :
    grownInWords? limit size capacity =
      if size < growthEnd then
        some (grownSize limit size, enlarged capacity (grownSize limit size))
      else none := by
  have hcapacity := h.eq_of_lt hlt
  have hgrown := lt_grownSize hlt
  have hroom : enlarged capacity (grownSize limit size) =
      max (max (size * 2) (grownSize limit size)) 8 := by
    rw [hcapacity, enlarged, if_neg (Nat.not_le_of_lt hgrown)]
  have hmost : grownSize limit size ≤ max (size * 2) 4096 := Nat.min_le_left _ _
  have hcount : Codec.wordCount = 4 * growthEnd := rfl
  have hextent : Codec.maxExtent + 1 = 2 * growthEnd := rfl
  have hend : growthEnd = 0x4000_0000_0000_0000 := rfl
  unfold grownInWords? Codec.wordProduct?
  by_cases hsize : size < growthEnd
  · have hword : size * 2 < Codec.wordCount := by omega
    have hfits : enlarged capacity (grownSize limit size) ≤ Codec.maxExtent := by omega
    rw [if_pos hword, if_pos hsize]
    exact if_pos hfits
  · have hover : ¬enlarged capacity (grownSize limit size) ≤ Codec.maxExtent := by omega
    rw [if_neg hsize]
    split
    · exact if_neg hover
    · rfl

/-- A buffer of 2^61 bytes can still double, and one of 2^62 bytes can grow by no byte. -/
example :
    let half := growthEnd / 2
    grownInWords? growthEnd half half = some (growthEnd, growthEnd) ∧
      grownInWords? (growthEnd + 1) growthEnd growthEnd = none := by
  decide

/-! ## States -/

/-- A poll leaves a buffer its size, or it grows below its limit. -/
theorem Sound.length_poll (h : b.Sound) : b.poll.2.buffer.length = b.buffer.length ∨
    b.buffer.length < b.limit ∧ b.poll.2.buffer.length = grownSize b.limit b.buffer.length := by
  cases h.polls with
  | idle _ hpoll => rw [hpoll]; exact .inl rfl
  | token _ _ hpoll => rw [hpoll]; exact .inl rfl
  | fault _ _ hpoll => rw [hpoll]; exact .inl rfl
  | ended _ _ _ hpoll => rw [hpoll]; exact .inl rfl
  | full _ _ _ hlength _ _ _ hpoll => rw [hpoll]; exact .inl hlength
  | wants _ _ _ hlength hroom hlimit _ hpoll =>
    rw [hpoll]
    split at hlength
    · exact .inl hlength
    · exact .inr ⟨by omega, hlength⟩

/-- A poll keeps a buffer among the sizes. -/
theorem Invariant.sized_poll (h : b.Invariant codec maxBuffer)
    (hsized : ∃ capacity, Sized b.limit b.buffer.length capacity) :
    ∃ capacity, Sized b.poll.2.limit b.poll.2.buffer.length capacity := by
  obtain ⟨capacity, hsized⟩ := hsized
  rw [h.toSound.poll_constants.2]
  rcases h.toSound.length_poll with hsame | ⟨hlt, hgrown⟩
  · rw [hsame]
    exact ⟨capacity, hsized⟩
  · rw [hgrown]
    exact ⟨_, hsized.grown hlt⟩

/-- The buffer of a visited state has one of the sizes. -/
theorem Visited.sized (h : b.Visited codec maxBuffer) :
    ∃ capacity, Sized b.limit b.buffer.length capacity := by
  induction h with
  | fresh => exact ⟨0, .empty⟩
  | polled h ih => exact h.invariant.sized_poll ih
  | @received b b' offered bytes h hpoll hle ih =>
    obtain ⟨-, hroom, -⟩ := h.invariant.poll_wants hpoll
    have hsized := h.invariant.sized_poll ih
    rw [hpoll] at hsized
    rw [(receive_constants b' bytes).2, length_receive (by omega)]
    exact hsized
  | failed h hpoll ih =>
    have hsized := h.invariant.sized_poll ih
    rw [hpoll] at hsized
    exact hsized

/-- A buffer that grows was below its limit, and has the next size then. -/
theorem Sound.length_of_grows (h : b.Sound) (hgrows : b.Grows) : b.buffer.length < b.limit ∧
    b.poll.2.buffer.length = grownSize b.limit b.buffer.length := by
  rcases h.length_poll with hsame | hgrown
  · exact absurd hsame (Nat.ne_of_gt hgrows)
  · exact hgrown

/-- The growth of a visited state is in range just if its buffer is not yet too large. -/
theorem Visited.grownInWords?_eq_some_iff (h : b.Visited codec maxBuffer) (hgrows : b.Grows) :
    (∃ capacity capacity', Sized b.limit b.buffer.length capacity ∧
        grownInWords? b.limit b.buffer.length capacity =
          some (b.poll.2.buffer.length, capacity')) ↔
      b.buffer.length < growthEnd := by
  obtain ⟨hlt, hgrown⟩ := h.invariant.toSound.length_of_grows hgrows
  constructor
  · rintro ⟨capacity, capacity', hsized, hwords⟩
    rw [hsized.grownInWords?_eq hlt] at hwords
    split at hwords
    · assumption
    · cases hwords
  · intro hsize
    obtain ⟨capacity, hsized⟩ := h.sized
    have hwords := hsized.grownInWords?_eq hlt
    rw [if_pos hsize, ← hgrown] at hwords
    exact ⟨capacity, _, hsized, hwords⟩

/-- With a limit up to this size every growth is in range. -/
theorem contained_of_le (h : maxBuffer ≤ growthEnd) (codec : Codec) :
    Contained codec maxBuffer := by
  intro b hvisited hgrows
  rw [hvisited.grownInWords?_eq_some_iff hgrows]
  have hlt := (hvisited.invariant.toSound.length_of_grows hgrows).1
  rw [hvisited.invariant.limit_eq] at hlt
  have hend : 1 ≤ growthEnd := by decide
  omega

/-! ## Long lines -/

/-- A reader is in the middle of a line that fills its buffer. -/
structure IsFull (size : Nat) (b : Buffered) : Prop where
  length_eq : b.buffer.length = size
  slice_eq : b.slice = List.replicate size 0x61
  atEnd : b.atEnd = false
  finished : b.finished = false

/-- A line that fills the buffer below its limit makes it grow. -/
theorem Visited.poll_of_isFull (h : b.Visited .lines maxBuffer) (hfull : b.IsFull size)
    (hlt : size < b.limit) : ∃ offered b', b.poll = (.wants offered, b') ∧
      b'.buffer.length = grownSize b.limit size := by
  have hfree : Bytes.newline ∉ b.slice := by
    rw [hfull.slice_eq]
    intro hmem
    exact absurd (List.eq_of_mem_replicate hmem) (by decide)
  have hsplit : b.codec.split b.slice false = .ok none := by
    rw [h.invariant.codec_eq]
    exact Codec.split_of_free hfree
  have hlength := h.invariant.length_slice
  rw [hfull.slice_eq, List.length_replicate] at hlength
  have hsize := hfull.length_eq
  cases h.invariant.polls with
  | idle hfinished => cases hfull.finished.symm.trans hfinished
  | token _ htoken =>
    rw [hfull.atEnd, hsplit] at htoken
    cases htoken
  | fault _ hfault =>
    rw [hfull.atEnd, hsplit] at hfault
    cases hfault
  | ended _ hend => cases hfull.atEnd.symm.trans hend
  | full _ _ _ hsame _ hlimit => omega
  | wants _ _ _ hgrown _ _ _ hpoll =>
    refine ⟨_, _, hpoll, ?_⟩
    rw [if_neg (by omega)] at hgrown
    rw [hgrown, ← hsize]
    rfl

/-- More of the line fills the buffer again. -/
theorem Visited.exists_isFull_grown (h : b.Visited .lines maxBuffer) (hfull : b.IsFull size)
    (hlt : size < b.limit) :
    ∃ b' : Buffered, b'.Visited .lines maxBuffer ∧ b'.IsFull (grownSize b.limit size) := by
  obtain ⟨offered, b', hpoll, hlength⟩ := h.poll_of_isFull hfull hlt
  obtain ⟨hpos, hroom, hstart, hslice, -, hend, hfinished⟩ := h.invariant.poll_wants hpoll
  have hsound : b'.Sound := by simpa only [hpoll] using h.invariant.poll.toSound
  have hstop := hsound.length_slice
  rw [hslice, hfull.slice_eq, List.length_replicate, hstart, Nat.sub_zero] at hstop
  have hmore : (List.replicate offered (0x61 : UInt8)).length = offered := List.length_replicate
  have hne : List.replicate offered (0x61 : UInt8) ≠ [] := by
    rw [Ne, List.replicate_eq_nil_iff]
    omega
  refine ⟨_, h.received hpoll (Nat.le_of_eq hmore), ?_, ?_, ?_, ?_⟩
  · rw [length_receive (by omega), hlength]
  · rw [slice_receive hsound.ordered hsound.within, hslice, hfull.slice_eq,
      List.replicate_append_replicate, ← hlength, ← hroom, hstop]
  · rw [receive, if_neg hne]
    exact hend
  · rw [receive, if_neg hne]
    exact hfinished

/-- A line fills the buffer at each doubling of its first size that the limit allows. -/
theorem exists_isFull (maxBuffer k : Nat) (hle : doublings k ≤ max maxBuffer 1) :
    ∃ b : Buffered, b.Visited .lines maxBuffer ∧ b.IsFull (doublings k) := by
  have hinitial : Tokenizer.initialSize = 4096 := rfl
  induction k with
  | zero =>
    have hfull : (fresh .lines maxBuffer).IsFull 0 := ⟨rfl, rfl, rfl, rfl⟩
    have hgrown : grownSize (max maxBuffer 1) 0 = doublings 0 := by
      unfold grownSize
      unfold doublings at hle ⊢
      omega
    rw [← hgrown]
    exact Visited.fresh.exists_isFull_grown hfull (Nat.lt_of_lt_of_le Nat.zero_lt_one
      (Nat.le_max_right ..))
  | succ k ih =>
    have hdouble : doublings (k + 1) = doublings k * 2 := rfl
    have hfirst := initialSize_le_doublings k
    obtain ⟨b, hvisited, hfull⟩ := ih (by omega)
    have hlimit := hvisited.invariant.limit_eq
    have hgrown : grownSize b.limit (doublings k) = doublings (k + 1) := by
      unfold grownSize
      omega
    rw [← hgrown]
    exact hvisited.exists_isFull_grown hfull (by omega)

/-- The buffer of a reader of lines grows in range just if its limit is not too large. -/
theorem contained_lines_iff : Contained .lines maxBuffer ↔ maxBuffer ≤ growthEnd := by
  refine ⟨fun hcontained ↦ Nat.le_of_not_lt fun hlt ↦ ?_, fun hle ↦ contained_of_le hle .lines⟩
  have hsize : doublings 50 = growthEnd := rfl
  obtain ⟨b, hvisited, hfull⟩ := exists_isFull maxBuffer 50 (by omega)
  have hlimit := hvisited.invariant.limit_eq
  rw [hsize] at hfull
  obtain ⟨offered, b', hpoll, hlength⟩ := hvisited.poll_of_isFull hfull (by omega)
  have hgrows : b.Grows := by
    rw [Grows, hpoll, hfull.length_eq, hlength]
    exact lt_grownSize (by omega)
  have hwithin := (hvisited.grownInWords?_eq_some_iff hgrows).mp (hcontained b hvisited hgrows)
  exact Nat.lt_irrefl _ (hfull.length_eq ▸ hwithin)

end Sidecar.Buffered
