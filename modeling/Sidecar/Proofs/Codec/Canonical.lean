import Mathlib.Data.List.Basic
import Sidecar.Proofs.Bytes.Segments
import Sidecar.Proofs.Codec.Copy
import Sidecar.Proofs.Codec.Netstring

/-!
# Canonical frames

A token that was split off can be written again. That gives the bytes it was split off, unless a
netstring's numeral begins with a zero too many or a line has a carriage return behind it
(`Canonical`). A numeral without such a zero is the one that its value is written as
(`digits_value_iff`), and four bytes are those that their number is written as
(`bigEndian_ofBigEndian`).
-/

namespace Sidecar

namespace Decimal

variable {ds : Bytes}

/-- Whether a numeral begins with a zero that it does not need. -/
def Padded (ds : Bytes) : Prop := ds.head? = some (digit 0) ∧ 1 < ds.length

instance (ds : Bytes) : Decidable (Padded ds) := inferInstanceAs (Decidable (_ ∧ _))

/-- A digit is that of the number that it stands for. -/
theorem digit_of_isDigit {d : UInt8} (h : isDigit d = true) :
    d.toNat - 0x30 < 10 ∧ digit (d.toNat - 0x30) = d := by
  simp only [isDigit, Bool.and_eq_true, decide_eq_true_eq, UInt8.le_iff_toNat_le] at h
  obtain ⟨hlow, hhigh⟩ := h
  change 0x30 ≤ d.toNat at hlow
  change d.toNat ≤ 0x39 at hhigh
  refine ⟨by omega, ?_⟩
  rw [digit, Nat.add_sub_cancel' hlow, UInt8.ofNat_toNat]

/-- Zero is written as one digit. -/
theorem digits_zero : digits 0 = [digit 0] := by
  rw [digits]
  rfl

/-- Only zero is written with a zero in front. -/
theorem head?_digits {n : Nat} (h : 0 < n) : (digits n).head? ≠ some (digit 0) := by
  induction n using digits.induct with
  | case1 n hn =>
    rw [digits, if_pos hn]
    intro heq
    have hcode := congrArg UInt8.toNat (Option.some.inj heq)
    rw [toNat_digit hn, toNat_digit (by decide)] at hcode
    omega
  | case2 n hn ih =>
    rw [digits, if_neg hn, List.head?_append_of_ne_nil _ (digits_ne_nil _)]
    exact ih (by omega)

/-- Numbers are written without a zero that they do not need. -/
theorem not_padded_digits (n : Nat) : ¬ Padded (digits n) := by
  rintro ⟨hhead, hlength⟩
  have hzero : n = 0 := by
    by_contra hne
    exact head?_digits (Nat.pos_of_ne_zero hne) hhead
  rw [hzero, digits_zero] at hlength
  exact absurd hlength (by decide)

/-- A numeral without a zero that it does not need is the one that its value is written as. -/
theorem digits_value (hne : ds ≠ []) (hdigits : ∀ d ∈ ds, isDigit d = true)
    (hcanonical : ¬ Padded ds) : digits (value ds) = ds := by
  -- From the last digit on, as numbers are written. What stands before it has no zero too many
  -- either, and is not zero, so that it is written at all.
  induction ds using List.reverseRecOn with
  | nil => exact absurd rfl hne
  | append_singleton front d ih =>
    obtain ⟨hlt, hd⟩ := digit_of_isDigit (hdigits d (by simp))
    rw [value_concat]
    by_cases hfront : front = []
    · subst hfront
      rw [digits, if_pos (by simpa [value] using hlt)]
      simpa [value] using hd
    · have hwritten : digits (value front) = front := by
        refine ih hfront (fun c hc ↦ hdigits c (List.mem_append_left _ hc)) ?_
        rintro ⟨hhead, hlength⟩
        refine hcanonical ⟨?_, ?_⟩
        · rw [List.head?_append_of_ne_nil _ hfront, hhead]
        · rw [List.length_append]
          omega
      have hpos : 0 < value front := by
        refine Nat.pos_of_ne_zero fun hzero ↦ hcanonical ⟨?_, ?_⟩
        · rw [List.head?_append_of_ne_nil _ hfront, ← hwritten, hzero, digits_zero]
          rfl
        · have hlength := List.length_pos_iff.mpr hfront
          rw [List.length_append, List.length_singleton]
          omega
      have hquotient : (10 * value front + (d.toNat - 0x30)) / 10 = value front := by omega
      have hremainder : (10 * value front + (d.toNat - 0x30)) % 10 = d.toNat - 0x30 := by omega
      rw [digits, if_neg (by omega), hquotient, hremainder, hwritten, hd]

/-- A numeral is the one that its value is written as just if it has no zero too many in front. -/
theorem digits_value_iff (hne : ds ≠ []) (hdigits : ∀ d ∈ ds, isDigit d = true) :
    digits (value ds) = ds ↔ ¬ Padded ds :=
  ⟨fun h ↦ h ▸ not_padded_digits (value ds), digits_value hne hdigits⟩

end Decimal

namespace Codec

/-- Four bytes denote a number below 2^32, and are what it is written as. -/
theorem bigEndian_ofBigEndian {b : Bytes} (h : b.length = lengthBytes) :
    ofBigEndian b < 0x1_0000_0000 ∧ bigEndian (ofBigEndian b) = b := by
  obtain _ | ⟨b₃, _ | ⟨b₂, _ | ⟨b₁, _ | ⟨b₀, _ | ⟨_, _⟩⟩⟩⟩⟩ := b <;> simp [lengthBytes] at h
  have h₃ := b₃.toNat_lt
  have h₂ := b₂.toNat_lt
  have h₁ := b₁.toNat_lt
  have h₀ := b₀.toNat_lt
  constructor
  · simp only [ofBigEndian, List.foldl_cons, List.foldl_nil]
    omega
  · simp only [ofBigEndian, bigEndian, List.foldl_cons, List.foldl_nil, List.cons.injEq, and_true,
      ← UInt8.toNat_inj, UInt8.toNat_ofNat']
    omega

/-! ## Written again -/

/-- Whether the first frame of some data is the one that its token is written as: no netstring's
numeral begins with a zero that it does not need, and no line has a carriage return at its end. -/
def Canonical (codec : Codec) (data : Bytes) : Prop :=
  match codec with
  | .lines => (data.takeWhile (· != Bytes.newline)).getLast? ≠ some Bytes.carriageReturn
  | .lengthPrefixed => True
  | .netstring => ¬ Decimal.Padded (data.takeWhile (· != Bytes.colon))

instance (codec : Codec) (data : Bytes) : Decidable (codec.Canonical data) :=
  match codec with
  | .lines => inferInstanceAs (Decidable (_ ≠ _))
  | .lengthPrefixed => inferInstanceAs (Decidable True)
  | .netstring => inferInstanceAs (Decidable (¬ _))

section

variable {codec : Codec} {data token payload : Bytes} {n : Nat}

/-- A payload that is delivered is written as its frame. -/
theorem encode_of_delivers (h : codec.Delivers payload) :
    codec.encode payload = .ok (codec.frame payload) := by
  obtain ⟨envelope, henvelope, hwrap⟩ := envelope_of_delivers h
  rw [encode, henvelope, ← hwrap]
  rfl

/-- Only a line that ends in a carriage return is another one when its frame is read. -/
theorem returned_eq_self_iff :
    codec.returned payload = payload ↔
      (codec = .lines → payload.getLast? ≠ some Bytes.carriageReturn) := by
  cases codec with
  | lines => simp [returned, Bytes.dropCarriageReturn_eq_self_iff]
  | lengthPrefixed => simp [returned]
  | netstring => simp [returned]

/-- A payload that is delivered is split off its frame, unless it is a line that ends in a carriage
return. -/
theorem split_frame_iff (h : codec.Delivers payload) :
    codec.split (codec.frame payload) false =
        .ok (some ((codec.frame payload).length, payload)) ↔
      (codec = .lines → payload.getLast? ≠ some Bytes.carriageReturn) := by
  have hread := (isRead_frame h (Nat.le_refl _)).splits
  rw [hread, ← returned_eq_self_iff]
  simp

/-- The first line of some data, and how it is written again. -/
theorem frame_of_splitLine (h : splitLine data false = some (n, token)) :
    Codec.lines.Delivers token ∧
      (Codec.lines.frame token = data.take n ↔ Codec.lines.Canonical data) := by
  by_cases hmem : Bytes.newline ∈ data
  · obtain ⟨line, rest, rfl, hfree⟩ := List.eq_append_cons_of_mem hmem
    simp only [splitLine, if_pos hmem, takeWhile_ne_concat hfree, Option.some.injEq,
      Prod.mk.injEq] at h
    obtain ⟨rfl, rfl⟩ := h
    have htake : (line ++ Bytes.newline :: rest).take (line.length + 1) =
        line ++ [Bytes.newline] := by
      rw [List.take_length_add_append, List.take_succ_cons, List.take_zero]
    refine ⟨Bytes.newline_notMem_dropCarriageReturn hfree, ?_⟩
    rw [htake, frame, List.append_left_inj, Bytes.dropCarriageReturn_eq_self_iff, Canonical,
      takeWhile_ne_concat hfree]
  · simp [splitLine, hmem] at h

/-- The first payload behind a binary length, and how it is written again. -/
theorem frame_of_splitLengthPrefixed (h : splitLengthPrefixed data false = some (n, token)) :
    Codec.lengthPrefixed.Delivers token ∧ Codec.lengthPrefixed.frame token = data.take n := by
  simp only [splitLengthPrefixed, Bool.false_eq_true, false_or, Option.ite_none_left_eq_some,
    Option.ite_none_right_eq_some, Option.some.injEq, Prod.mk.injEq] at h
  obtain ⟨hlong, hstop, rfl, rfl⟩ := h
  have hheader : (data.take lengthBytes).length = lengthBytes := by
    rw [List.length_take]
    omega
  obtain ⟨hlt, hwritten⟩ := bigEndian_ofBigEndian hheader
  have hlength : ((data.take (lengthBytes + ofBigEndian (data.take lengthBytes))).drop
      lengthBytes).length = ofBigEndian (data.take lengthBytes) := by
    rw [List.length_drop, List.length_take]
    omega
  refine ⟨?_, ?_⟩
  · rw [Delivers, hlength]
    exact hlt
  · rw [frame, hlength, hwritten]
    generalize ofBigEndian (data.take lengthBytes) = k
    calc data.take lengthBytes ++ (data.take (lengthBytes + k)).drop lengthBytes
        = (data.take (lengthBytes + k)).take lengthBytes ++
            (data.take (lengthBytes + k)).drop lengthBytes := by
          rw [List.take_take, Nat.min_eq_left (Nat.le_add_right _ _)]
      _ = data.take (lengthBytes + k) := List.take_append_drop ..

/-- Bytes before a colon that are a length declare it. -/
theorem Headed.declares_of_ok {ds body : Bytes} {declared : Nat} (h : Headed data ds body)
    (hne : ds ≠ []) (hd : declaredLength ds = .ok declared) :
    Declares data ds body ∧ declared = Decimal.value ds := by
  unfold declaredLength at hd
  split at hd
  · next hnumber =>
    cases hd
    exact ⟨⟨h, ⟨hne, List.all_eq_true.mp hnumber.1⟩, hnumber.2⟩, rfl⟩
  · cases hd

/-- A netstring that was split off declares its length. -/
theorem exists_declares_of_token (h : splitNetstring data false = .ok (some (n, token))) :
    ∃ ds body, Declares data ds body ∧ body[Decimal.value ds]? = some Bytes.comma ∧
      n = ds.length + 1 + Decimal.value ds + 1 ∧ token = body.take (Decimal.value ds) := by
  have hmem : Bytes.colon ∈ data := by
    by_contra hfree
    simp [splitNetstring, hfree] at h
  obtain ⟨ds, body, hheaded⟩ := exists_headed hmem
  have hne : ds ≠ [] := by
    rintro rfl
    simp [splitNetstring, hheaded.eq] at h
  cases hd : declaredLength ds with
  | error fault =>
    rw [hheaded.splitNetstring_eq hne hd] at h
    cases h
  | ok declared =>
    obtain ⟨hdeclares, rfl⟩ := hheaded.declares_of_ok hne hd
    by_cases hrange : ds.length + 1 + Decimal.value ds < 0x1_0000_0000_0000_0000
    · rw [hheaded.eq, splitNetstring_of_declared hheaded.free hne hd hrange] at h
      cases hbyte : body[Decimal.value ds]? with
      | none => simp [hbyte] at h
      | some b =>
        simp only [hbyte] at h
        split at h
        · next hcomma =>
          cases h
          exact ⟨ds, body, hdeclares, hcomma ▸ hbyte, rfl, rfl⟩
        · cases h
    · simp [splitNetstring, hheaded.eq, takeWhile_ne_concat hheaded.free, hne, hd, bind,
        Except.bind, Nat.le_of_not_lt hrange] at h

/-- The first netstring, and how it is written again. -/
theorem frame_of_splitNetstring (h : splitNetstring data false = .ok (some (n, token))) :
    Codec.netstring.Delivers token ∧
      (Codec.netstring.frame token = data.take n ↔ Codec.netstring.Canonical data) := by
  obtain ⟨ds, body, hdeclares, hcomma, rfl, rfl⟩ := exists_declares_of_token h
  have hlength : (body.take (Decimal.value ds)).length = Decimal.value ds := by
    have hlt := (List.getElem?_eq_some_iff.mp hcomma).1
    rw [List.length_take]
    omega
  have htake : data.take (ds.length + 1 + Decimal.value ds + 1) =
      ds ++ Bytes.colon :: (body.take (Decimal.value ds) ++ [Bytes.comma]) := by
    have hcount : ds.length + 1 + Decimal.value ds + 1 =
        ds.length + (Decimal.value ds + 1 + 1) := by omega
    rw [hcount, hdeclares.eq, List.take_length_add_append, List.take_succ_cons, List.take_add_one,
      hcomma]
    rfl
  refine ⟨?_, ?_⟩
  · rw [Delivers, hlength]
    exact hdeclares.le_max
  · rw [frame, hlength, htake, List.append_left_inj, Canonical, hdeclares.eq,
      takeWhile_ne_concat hdeclares.free,
      Decimal.digits_value_iff hdeclares.numeral.1 hdeclares.numeral.2]

/-- A token that was split off is delivered, and its frame is what it was split off just if that is
canonical. -/
theorem frame_of_split (h : codec.split data false = .ok (some (n, token))) :
    codec.Delivers token ∧ (codec.frame token = data.take n ↔ codec.Canonical data) := by
  cases codec with
  | lines => exact frame_of_splitLine (Except.ok.inj h)
  | lengthPrefixed =>
    obtain ⟨hdelivers, hframe⟩ := frame_of_splitLengthPrefixed (Except.ok.inj h)
    exact ⟨hdelivers, iff_of_true hframe trivial⟩
  | netstring => exact frame_of_splitNetstring h

/-- A token that was split off is written again without a fault, and gives the bytes that it was
split off just if they are canonical. What is written is split off again, and gives the token, just
if the token is no line that ends in a carriage return; of canonical bytes it never is. -/
theorem encode_of_split (h : codec.split data false = .ok (some (n, token))) :
    ∃ written, codec.encode token = .ok written ∧
      (written = data.take n ↔ codec.Canonical data) ∧
      (codec.split written false = .ok (some (written.length, token)) ↔
        (codec = .lines → token.getLast? ≠ some Bytes.carriageReturn)) ∧
      (codec.Canonical data →
        codec.split written false = .ok (some (written.length, token))) := by
  obtain ⟨hdelivers, hframe⟩ := frame_of_split h
  refine ⟨codec.frame token, encode_of_delivers hdelivers, hframe, split_frame_iff hdelivers,
    fun hcanonical ↦ ?_⟩
  have hread := (isRead_frame hdelivers (Nat.le_refl _)).splits
  -- What follows the frame in the data does not change what is split off it.
  have hsame : codec.split data false = codec.split (codec.frame token) false := by
    conv_lhs => rw [← List.take_append_drop n data, ← hframe.mpr hcanonical]
    exact split_append (by rw [hread]; simp) _
  have htoken := (h.symm.trans hsame).trans hread
  simp only [Except.ok.injEq, Option.some.injEq, Prod.mk.injEq] at htoken
  rw [hread, ← htoken.2]

/-- A netstring whose numeral begins with two zeros too many, a line that ends in two carriage
returns, and a payload behind a binary length, each with something behind it. -/
theorem encode_of_split_padded :
    (Codec.netstring.split [0x30, 0x30, 0x31, 0x3a, 0x3a, 0x2c, 0x32] false =
        .ok (some (6, [0x3a])) ∧
      ∃ written, Codec.netstring.encode [0x3a] = .ok written ∧
        written ≠ [0x30, 0x30, 0x31, 0x3a, 0x3a, 0x2c] ∧
        Codec.netstring.split written false = .ok (some (written.length, [0x3a]))) ∧
    (Codec.lines.split [0x61, 0x0d, 0x0d, 0x0a, 0x62] false = .ok (some (4, [0x61, 0x0d])) ∧
      ∃ written, Codec.lines.encode [0x61, 0x0d] = .ok written ∧
        written ≠ [0x61, 0x0d, 0x0d, 0x0a] ∧
        Codec.lines.split written false ≠ .ok (some (written.length, [0x61, 0x0d]))) ∧
    (Codec.lengthPrefixed.split [0, 0, 0, 1, 0x0d, 0x62] false = .ok (some (5, [0x0d])) ∧
      ∃ written, Codec.lengthPrefixed.encode [0x0d] = .ok written ∧
        written = [0, 0, 0, 1, 0x0d] ∧
        Codec.lengthPrefixed.split written false = .ok (some (written.length, [0x0d]))) := by
  have hpadded : Codec.netstring.split [0x30, 0x30, 0x31, 0x3a, 0x3a, 0x2c, 0x32] false =
      .ok (some (6, [0x3a])) := rfl
  have hreturned : Codec.lines.split [0x61, 0x0d, 0x0d, 0x0a, 0x62] false =
      .ok (some (4, [0x61, 0x0d])) := rfl
  have hsized : Codec.lengthPrefixed.split [0, 0, 0, 1, 0x0d, 0x62] false =
      .ok (some (5, [0x0d])) := rfl
  obtain ⟨netstring, hnetstring, hzeros, hagain, -⟩ := encode_of_split hpadded
  obtain ⟨line, hline, hreturns, hshorter, -⟩ := encode_of_split hreturned
  obtain ⟨payload, hpayload, hbytes, -, hback⟩ := encode_of_split hsized
  refine ⟨⟨hpadded, netstring, hnetstring, ?_, ?_⟩, ⟨hreturned, line, hline, ?_, ?_⟩,
    ⟨hsized, payload, hpayload, ?_, ?_⟩⟩
  · exact fun heq ↦ absurd (hzeros.mp heq) (by decide)
  · exact hagain.mpr (by decide)
  · exact fun heq ↦ absurd (hreturns.mp heq) (by decide)
  · exact fun heq ↦ absurd (hshorter.mp heq rfl) (by decide)
  · exact hbytes.mpr trivial
  · exact hback trivial

end

end Codec
end Sidecar
