import Sidecar.Codec.Split

/-!
# A token takes bytes of the data

Whatever the codec, a token that is split off takes at least one byte and never more than there
are (`split_consumes`). Reading a stream token by token therefore comes to an end.
-/

namespace Sidecar.Codec

/-- The piece before the first of some byte is shorter than the whole. -/
theorem takeWhile_ne_length_lt {b : UInt8} {data : Bytes} (h : b ∈ data) :
    (data.takeWhile (· != b)).length < data.length := by
  induction data with
  | nil => cases h
  | cons c rest ih =>
    by_cases hc : c = b
    · simp [hc]
    · have : b ∈ rest := by
        rcases List.mem_cons.mp h with rfl | h
        · exact absurd rfl hc
        · exact h
      simp [hc, ih this]

private theorem splitLine_consumes {data payload : Bytes} {atEnd : Bool} {n : Nat}
    (h : splitLine data atEnd = some (n, payload)) : 0 < n ∧ n ≤ data.length := by
  unfold splitLine at h
  split at h
  · next hmem =>
    simp only [Option.some.injEq, Prod.mk.injEq] at h
    have := takeWhile_ne_length_lt hmem
    omega
  · split at h
    · next hend =>
      simp only [Option.some.injEq, Prod.mk.injEq] at h
      have := List.length_pos_iff.mpr hend.2
      omega
    · cases h

private theorem splitLengthPrefixed_consumes {data payload : Bytes} {atEnd : Bool} {n : Nat}
    (h : splitLengthPrefixed data atEnd = some (n, payload)) : 0 < n ∧ n ≤ data.length := by
  simp only [splitLengthPrefixed] at h
  split at h
  · cases h
  · split at h
    · simp only [Option.some.injEq, Prod.mk.injEq, lengthBytes] at h
      simp only [lengthBytes] at *
      omega
    · cases h

private theorem splitNetstring_consumes {data payload : Bytes} {atEnd : Bool} {n : Nat}
    (h : splitNetstring data atEnd = .ok (some (n, payload))) : 0 < n ∧ n ≤ data.length := by
  simp only [splitNetstring] at h
  split at h
  · simp at h
  · split at h
    · simp at h
    · simp only [bind, Except.bind] at h
      split at h
      · cases h
      · split at h
        · cases h
        · split at h
          · simp at h
          · next hget =>
            split at h
            · simp only [Except.ok.injEq, Option.some.injEq, Prod.mk.injEq] at h
              have := (List.getElem?_eq_some_iff.mp hget).1
              omega
            · cases h

/-- A token takes at least one byte and at most all of them. -/
theorem split_consumes {codec : Codec} {data payload : Bytes} {atEnd : Bool} {n : Nat}
    (h : codec.split data atEnd = .ok (some (n, payload))) : 0 < n ∧ n ≤ data.length := by
  cases codec with
  | lines => exact splitLine_consumes (Except.ok.inj h)
  | lengthPrefixed => exact splitLengthPrefixed_consumes (Except.ok.inj h)
  | netstring => exact splitNetstring_consumes h

end Sidecar.Codec
