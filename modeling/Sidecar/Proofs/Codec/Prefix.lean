import Sidecar.Codec.Consume

/-!
# Further bytes change no answer

`Codec.split` looks at the bytes received so far. Once it has answered with a token or a fault, the
bytes that arrive later leave the answer as it is (`split_append`), so only the request for more
bytes can turn into something else. At the end of the stream nothing can be wrong any more
(`split_end_ne_error`): what is left is an unterminated last line, or nothing.
-/

namespace Sidecar.Codec

/-- The piece before the first of some byte stays the same when more bytes follow. -/
theorem takeWhile_ne_append {b : UInt8} {data : Bytes} (h : b ∈ data) (more : Bytes) :
    (data ++ more).takeWhile (· != b) = data.takeWhile (· != b) := by
  rw [List.takeWhile_append, if_neg (Nat.ne_of_lt (takeWhile_ne_length_lt h))]

/-- What lies within the data is cut out of it alike when more bytes follow. -/
theorem slice_append {data : Bytes} {stop : Nat} (h : stop ≤ data.length) (start : Nat)
    (more : Bytes) : ((data ++ more).take stop).drop start = (data.take stop).drop start := by
  rw [List.take_append_of_le_length h]

/-- A line that has been found stays the first one. -/
theorem splitLine_append {data : Bytes} (h : splitLine data false ≠ none) (more : Bytes) :
    splitLine (data ++ more) false = splitLine data false := by
  have hmem : Bytes.newline ∈ data := by
    by_cases hmem : Bytes.newline ∈ data
    · exact hmem
    · exact absurd (by simp [splitLine, hmem]) h
  have hmore : Bytes.newline ∈ data ++ more := List.mem_append_left more hmem
  simp only [splitLine, if_pos hmem, if_pos hmore, takeWhile_ne_append hmem more]

/-- A payload that has arrived behind its length stays the first one. -/
theorem splitLengthPrefixed_append {data : Bytes} (h : splitLengthPrefixed data false ≠ none)
    (more : Bytes) :
    splitLengthPrefixed (data ++ more) false = splitLengthPrefixed data false := by
  by_cases hshort : data.length < lengthBytes
  · exact absurd (by simp [splitLengthPrefixed, hshort]) h
  · have hprefix : (data ++ more).take lengthBytes = data.take lengthBytes :=
      List.take_append_of_le_length (Nat.le_of_not_lt hshort)
    have hlong : ¬ (data ++ more).length < lengthBytes := by
      rw [List.length_append]; omega
    simp only [splitLengthPrefixed, Bool.false_eq_true, false_or, if_neg hshort, if_neg hlong,
      hprefix] at h ⊢
    split at h
    · next hstop =>
      rw [if_pos hstop, if_pos (by rw [List.length_append]; omega), slice_append hstop]
    · exact absurd rfl h

/-- A netstring that has arrived, or that is malformed, stays what it is. -/
theorem splitNetstring_append {data : Bytes} (h : splitNetstring data false ≠ .ok none)
    (more : Bytes) : splitNetstring (data ++ more) false = splitNetstring data false := by
  have hmem : Bytes.colon ∈ data := by
    by_cases hmem : Bytes.colon ∈ data
    · exact hmem
    · exact absurd (by simp [splitNetstring, hmem]) h
  have hmore : Bytes.colon ∈ data ++ more := List.mem_append_left more hmem
  simp only [splitNetstring, Bool.false_eq_true, false_or, hmem, hmore, not_true_eq_false,
    if_false, takeWhile_ne_append hmem more] at h ⊢
  split
  · rfl
  · next hds =>
    rw [if_neg hds] at h
    cases hd : declaredLength (data.takeWhile (· != Bytes.colon)) with
    | error fault => rfl
    | ok declared =>
      rw [hd] at h
      simp only [bind, Except.bind] at h ⊢
      split
      · rfl
      · next hrange =>
        rw [if_neg hrange] at h
        cases hget : data[(data.takeWhile (· != Bytes.colon)).length + 1 + declared]? with
        | none => exact absurd (by rw [hget]) h
        | some b =>
          -- The byte behind the payload is there, and with it the whole payload.
          have hstop := (List.getElem?_eq_some_iff.mp hget).1
          rw [List.getElem?_append_left hstop, hget, slice_append (Nat.le_of_lt hstop)]

/-- A token or a fault does not change when more bytes follow. -/
theorem split_append {codec : Codec} {data : Bytes} (h : codec.split data false ≠ .ok none)
    (more : Bytes) : codec.split (data ++ more) false = codec.split data false := by
  cases codec with
  | lines =>
    have hline : splitLine data false ≠ none := fun hn ↦ h (congrArg Except.ok hn)
    exact congrArg Except.ok (splitLine_append hline more)
  | lengthPrefixed =>
    have hpayload : splitLengthPrefixed data false ≠ none := fun hn ↦ h (congrArg Except.ok hn)
    exact congrArg Except.ok (splitLengthPrefixed_append hpayload more)
  | netstring => exact splitNetstring_append h more

/-- Nothing is split off no bytes. -/
theorem split_nil (codec : Codec) (atEnd : Bool) : codec.split [] atEnd = .ok none := by
  cases codec <;> cases atEnd <;> rfl

/-- The end of the stream is never a fault. -/
theorem split_end_ne_error (codec : Codec) (data : Bytes) (fault : Fault) :
    codec.split data true ≠ .error fault := by
  cases codec <;> simp [split, splitNetstring]

/-- Where more bytes were needed, a token at the end of the stream takes all there is. -/
theorem split_end_takes_all {codec : Codec} {data token : Bytes} {n : Nat}
    (hmore : codec.split data false = .ok none)
    (hend : codec.split data true = .ok (some (n, token))) : n = data.length := by
  cases codec with
  | lines =>
    have hmem : Bytes.newline ∉ data := by
      intro hmem
      simp [split, splitLine, hmem] at hmore
    simp only [split, splitLine, hmem, if_false, Except.ok.injEq] at hend
    split at hend
    · exact (congrArg Prod.fst (Option.some.inj hend)).symm
    · cases hend
  | lengthPrefixed => simp [split, splitLengthPrefixed] at hend
  | netstring => simp [split, splitNetstring] at hend

/-- A line that is terminated is the first one at the end of the stream too. -/
theorem splitLine_of_newline {data : Bytes} (h : Bytes.newline ∈ data) (atEnd : Bool) :
    splitLine data atEnd = splitLine data false := by
  simp only [splitLine, if_pos h]

/-- Further bytes leave a token and a fault as they are, so only the request for more bytes can turn
into something else; and the end of the stream changes nothing for a line that is terminated. -/
theorem split_stable (codec : Codec) (data more : Bytes) :
    (∀ n token, codec.split data false = .ok (some (n, token)) →
      n ≤ data.length ∧ codec.split (data ++ more) false = .ok (some (n, token))) ∧
    (∀ fault, codec.split data false = .error fault →
      codec.split (data ++ more) false = .error fault) ∧
    (codec.split (data ++ more) false ≠ codec.split data false →
      codec.split data false = .ok none) ∧
    (codec = .lines → Bytes.newline ∈ data → codec.split data true = codec.split data false) := by
  refine ⟨fun n token h ↦ ⟨(split_consumes h).2, ?_⟩, fun fault h ↦ ?_, fun hne ↦ ?_, ?_⟩
  · rw [split_append (by rw [h]; simp) more, h]
  · rw [split_append (by rw [h]; simp) more, h]
  · exact Classical.not_not.mp fun h ↦ hne (split_append h more)
  · rintro rfl hmem
    exact congrArg Except.ok (splitLine_of_newline hmem true)

/-- A netstring and a malformed one, with what comes behind them, and a line at the end. -/
theorem split_stable_of_netstrings :
    Codec.netstring.split ([0x31, 0x3a, 0x61, 0x2c] ++ [0x3a]) false = .ok (some (4, [0x61])) ∧
      Codec.netstring.split ([0x78, 0x3a] ++ [0x61]) false = .error (.invalidLength "x") ∧
      Codec.lines.split [0x61, 0x0a, 0x62] true = Codec.lines.split [0x61, 0x0a, 0x62] false := by
  have htoken : Codec.netstring.split [0x31, 0x3a, 0x61, 0x2c] false = .ok (some (4, [0x61])) :=
    rfl
  have hfault : Codec.netstring.split [0x78, 0x3a] false = .error (.invalidLength "x") :=
    rfl
  exact ⟨((split_stable .netstring _ [0x3a]).1 _ _ htoken).2,
    (split_stable .netstring _ [0x61]).2.1 _ hfault,
    (split_stable .lines [0x61, 0x0a, 0x62] []).2.2.2 rfl (by decide)⟩

end Sidecar.Codec
