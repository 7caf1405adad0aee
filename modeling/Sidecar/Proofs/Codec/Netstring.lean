import Mathlib.Data.List.Induction
import Sidecar.Proofs.Codec.Encode

/-!
# The grammar of netstrings

A netstring is a numeral, a colon, as many bytes as the numeral says, and a comma. `Form` says for
every byte string what splitting it comes to: a netstring at its beginning, one of three faults, or
nothing yet. Every byte string has a form (`exists_form`), and it is what splitting comes to
(`form_iff`), so splitting accepts exactly the grammar.

`splitNetstringInWords` does the same with 64-bit words and positions that are checked, and reads a
numeral digit by digit. On data that fit into memory nothing is out of range
(`splitNetstringInWords_eq`).
-/

namespace Sidecar.Codec

/-- The greatest length of a byte string in memory. -/
def maxExtent : Nat := 0x7fff_ffff_ffff_ffff

/-- A numeral has at least one digit and nothing else; it may begin with zeros. -/
def IsNumeral (ds : Bytes) : Prop := ds ≠ [] ∧ ∀ d ∈ ds, Decimal.isDigit d = true

/-- The data have a colon; these are the bytes before the first one and those behind it. -/
structure Headed (data ds body : Bytes) : Prop where
  eq : data = ds ++ Bytes.colon :: body
  free : Bytes.colon ∉ ds

/-- The data begin with a length that a netstring may declare. -/
structure Declares (data ds body : Bytes) : Prop extends Headed data ds body where
  numeral : IsNumeral ds
  le_max : Decimal.value ds ≤ maxDeclared

/-- The first bytes of the data, of this number, are a netstring with this payload. -/
def IsNetstring (data : Bytes) (n : Nat) (payload : Bytes) : Prop :=
  n ≤ data.length ∧ ∃ ds, IsNumeral ds ∧ Decimal.value ds = payload.length ∧
    data.take n = ds ++ Bytes.colon :: (payload ++ [Bytes.comma])

/-- These bytes stand before the first colon, and they are no length that may be declared. -/
def Misnumbered (data ds : Bytes) : Prop :=
  ∃ body, Headed data ds body ∧ ds ≠ [] ∧
    ((∃ d ∈ ds, Decimal.isDigit d = false) ∨ maxDeclared < Decimal.value ds)

/-- Behind the payload of a length that may be declared stands something else than a comma. -/
def Unclosed (data : Bytes) : Prop :=
  ∃ ds body b, Declares data ds body ∧ body[Decimal.value ds]? = some b ∧ b ≠ Bytes.comma

/-- What splitting netstrings off some data comes to. -/
inductive Form (data : Bytes) : Except Fault (Option (Nat × Bytes)) → Prop where
  | token {n : Nat} {payload : Bytes} (h : IsNetstring data n payload) :
      Form data (.ok (some (n, payload)))
  | unnumbered (h : data.head? = some Bytes.colon) : Form data (.error .startsWithColon)
  | misnumbered {ds : Bytes} (h : Misnumbered data ds) :
      Form data (.error (.invalidLength (Utf8.decodeLossy ds)))
  | unclosed (h : Unclosed data) : Form data (.error .missingComma)
  /-- The colon has not come yet. -/
  | headless (hfree : Bytes.colon ∉ data) : Form data (.ok none)
  /-- The byte behind the payload has not come yet. -/
  | unfinished {ds body : Bytes} (hdeclares : Declares data ds body)
      (hshort : body.length ≤ Decimal.value ds) : Form data (.ok none)

section

variable {data ds body payload : Bytes} {n : Nat} {result : Except Fault (Option (Nat × Bytes))}

/-! ## Numerals -/

/-- No colon stands in a numeral. -/
theorem IsNumeral.colon_notMem (h : IsNumeral ds) : Bytes.colon ∉ ds := by
  intro hmem
  exact absurd (h.2 _ hmem) (by decide)

/-- Bytes that are not all digits hold one that is none. -/
theorem exists_not_isDigit (h : ds.all Decimal.isDigit = false) :
    ∃ d ∈ ds, Decimal.isDigit d = false := by
  simpa using h

/-- The length that a numeral declares is its value, unless that is too large. -/
theorem IsNumeral.declaredLength (h : IsNumeral ds) (hle : Decimal.value ds ≤ maxDeclared) :
    Codec.declaredLength ds = .ok (Decimal.value ds) :=
  if_pos ⟨List.all_eq_true.mpr h.2, hle⟩

/-- Bytes that are no numeral, or one too large, declare no length. -/
theorem declaredLength_of_bad
    (h : (∃ d ∈ ds, Decimal.isDigit d = false) ∨ maxDeclared < Decimal.value ds) :
    declaredLength ds = .error (.invalidLength (Utf8.decodeLossy ds)) := by
  refine if_neg ?_
  rintro ⟨hall, hle⟩
  rcases h with ⟨d, hmem, hd⟩ | hlt
  · rw [List.all_eq_true.mp hall d hmem] at hd
    cases hd
  · exact Nat.not_le_of_lt hlt hle

/-! ## Splitting by form -/

/-- Bytes that hold a colon are cut at the first one. -/
theorem exists_headed (h : Bytes.colon ∈ data) : ∃ ds body, Headed data ds body := by
  obtain ⟨ds, body, heq, hfree⟩ := List.eq_append_cons_of_mem h
  exact ⟨ds, body, heq, hfree⟩

theorem Headed.length_eq (h : Headed data ds body) :
    data.length = ds.length + (body.length + 1) := by
  rw [h.eq, List.length_append, List.length_cons]

/-- What comes before the first colon is refused as a length. -/
theorem Headed.splitNetstring_eq {fault : Fault} (h : Headed data ds body) (hne : ds ≠ [])
    (hd : declaredLength ds = .error fault) : splitNetstring data false = .error fault := by
  have hmem : Bytes.colon ∈ ds ++ Bytes.colon :: body := by simp
  simp only [h.eq, splitNetstring, Bool.false_eq_true, false_or, hmem, not_true_eq_false,
    if_false, takeWhile_ne_concat h.free, hne, hd, bind, Except.bind]

/-- In memory the end of a declared payload is a word. -/
theorem Headed.stop_lt (h : Headed data ds body) (hextent : data.length ≤ maxExtent) {declared : Nat}
    (hle : declared ≤ maxDeclared) : ds.length + 1 + declared < 0x1_0000_0000_0000_0000 := by
  have hlength := h.length_eq
  have hmax : maxDeclared = 0x7fff_ffff_ffff_ffff := rfl
  have hmax' : maxExtent = 0x7fff_ffff_ffff_ffff := rfl
  omega

/-- Behind a length that may be declared, the byte behind the payload decides. -/
theorem Declares.splitNetstring_eq (h : Declares data ds body) (hextent : data.length ≤ maxExtent) :
    splitNetstring data false =
      match body[Decimal.value ds]? with
      | none => .ok none
      | some b =>
        if b = Bytes.comma then
          .ok (some (ds.length + 1 + Decimal.value ds + 1, body.take (Decimal.value ds)))
        else .error .missingComma := by
  have hrange := h.stop_lt hextent h.le_max
  rw [h.eq]
  exact splitNetstring_of_declared h.free h.numeral.1 (h.numeral.declaredLength h.le_max) hrange body

/-- A netstring at the beginning of the data declares its length there. -/
theorem declares_of_take (hle : n ≤ data.length) (hextent : data.length ≤ maxExtent)
    (hnumeral : IsNumeral ds) (hvalue : Decimal.value ds = payload.length)
    (htake : data.take n = ds ++ Bytes.colon :: (payload ++ [Bytes.comma])) :
    n = ds.length + 1 + payload.length + 1 ∧
      Declares data ds (payload ++ Bytes.comma :: data.drop n) := by
  have hlength := congrArg List.length htake
  simp only [List.length_take, List.length_append, List.length_cons, List.length_nil] at hlength
  have hmax : maxDeclared = maxExtent := rfl
  refine ⟨by omega, ⟨?_, hnumeral.colon_notMem⟩, hnumeral, by omega⟩
  calc data = data.take n ++ data.drop n := (List.take_append_drop n data).symm
    _ = ds ++ Bytes.colon :: (payload ++ Bytes.comma :: data.drop n) := by simp [htake]

/-- Splitting comes to what the form of the data says. -/
theorem Form.splitNetstring_eq (h : Form data result) (hextent : data.length ≤ maxExtent) :
    splitNetstring data false = result := by
  cases h with
  | token h =>
    obtain ⟨hle, ds, hnumeral, hvalue, htake⟩ := h
    obtain ⟨hn, hdeclares⟩ := declares_of_take hle hextent hnumeral hvalue htake
    rw [hdeclares.splitNetstring_eq hextent, hvalue, List.getElem?_append_right (Nat.le_refl _),
      Nat.sub_self, List.take_left, ← hn]
    rfl
  | unnumbered hhead =>
    obtain ⟨rest, rfl⟩ := List.head?_eq_some_iff.mp hhead
    simp [splitNetstring]
  | misnumbered h =>
    obtain ⟨body, hheaded, hne, hbad⟩ := h
    exact hheaded.splitNetstring_eq hne (declaredLength_of_bad hbad)
  | unclosed h =>
    obtain ⟨ds, body, b, hdeclares, hbyte, hne⟩ := h
    rw [hdeclares.splitNetstring_eq hextent, hbyte]
    exact if_neg hne
  | headless hfree => simp [splitNetstring, hfree]
  | unfinished hdeclares hshort =>
    rw [hdeclares.splitNetstring_eq hextent, List.getElem?_eq_none hshort]

/-- A length that may be declared leads to a token, to a fault, or to nothing yet. -/
theorem Declares.exists_form (h : Declares data ds body) : ∃ result, Form data result := by
  cases hbyte : body[Decimal.value ds]? with
  | none => exact ⟨_, .unfinished h (List.getElem?_eq_none_iff.mp hbyte)⟩
  | some b =>
    by_cases hcomma : b = Bytes.comma
    · obtain ⟨hlt, hget⟩ := List.getElem?_eq_some_iff.mp hbyte
      have hbody : body = body.take (Decimal.value ds) ++ Bytes.comma ::
          body.drop (Decimal.value ds + 1) := by
        rw [← hcomma, ← hget, ← List.drop_eq_getElem_cons hlt, List.take_append_drop]
      have htoken : data = (ds ++ Bytes.colon :: (body.take (Decimal.value ds) ++ [Bytes.comma])) ++
          body.drop (Decimal.value ds + 1) := by
        calc data = ds ++ Bytes.colon :: body := h.eq
          _ = ds ++ Bytes.colon :: (body.take (Decimal.value ds) ++
              Bytes.comma :: body.drop (Decimal.value ds + 1)) := by rw [← hbody]
          _ = _ := by simp
      have hform : Form data (.ok (some ((ds ++ Bytes.colon ::
          (body.take (Decimal.value ds) ++ [Bytes.comma])).length,
            body.take (Decimal.value ds)))) := by
        refine .token ⟨?_, ds, h.numeral, ?_, ?_⟩
        · conv_rhs => rw [htoken, List.length_append]
          exact Nat.le_add_right _ _
        · rw [List.length_take]
          omega
        · rw [htoken, List.take_left]
      exact ⟨_, hform⟩
    · exact ⟨_, .unclosed ⟨ds, body, b, h, hbyte, hcomma⟩⟩

/-- All data have a form. -/
theorem exists_form (data : Bytes) : ∃ result, Form data result := by
  by_cases hmem : Bytes.colon ∈ data
  · obtain ⟨ds, body, hheaded⟩ := exists_headed hmem
    by_cases hne : ds = []
    · subst hne
      exact ⟨_, .unnumbered (by rw [hheaded.eq]; rfl)⟩
    · cases hall : ds.all Decimal.isDigit with
      | false => exact ⟨_, .misnumbered ⟨body, hheaded, hne, .inl (exists_not_isDigit hall)⟩⟩
      | true =>
        rcases Nat.lt_or_ge maxDeclared (Decimal.value ds) with hlt | hle
        · exact ⟨_, .misnumbered ⟨body, hheaded, hne, .inr hlt⟩⟩
        · have hdeclares : Declares data ds body :=
            ⟨hheaded, ⟨hne, List.all_eq_true.mp hall⟩, hle⟩
          exact hdeclares.exists_form
  · exact ⟨_, .headless hmem⟩

/-- Data have the form that splitting them finds, and no other one. -/
theorem form_iff (hextent : data.length ≤ maxExtent) :
    Form data result ↔ splitNetstring data false = result := by
  constructor
  · exact fun h ↦ h.splitNetstring_eq hextent
  · rintro rfl
    obtain ⟨result, hform⟩ := exists_form data
    rwa [hform.splitNetstring_eq hextent]

end

/-! ## Words -/

/-- How many numbers there are in a 64-bit word. -/
def wordCount : Nat := 0x1_0000_0000_0000_0000

/-- A sum, if it is a word. -/
def wordSum? (a b : Nat) : Option Nat := if a + b < wordCount then some (a + b) else none

/-- A product, if it is a word. -/
def wordProduct? (a b : Nat) : Option Nat := if a * b < wordCount then some (a * b) else none

/-- Reads digits one by one for as long as the number read is a word. -/
def wordOfDigits? (ds : Bytes) : Option Nat :=
  ds.foldlM (fun acc d ↦ (wordProduct? 10 acc).bind (wordSum? · (d.toNat - 0x30))) 0

/-- The bytes from one position to another, if there are such positions. -/
def slice? (data : Bytes) (start stop : Nat) : Option Bytes :=
  if start ≤ stop ∧ stop ≤ data.length then some ((data.take stop).drop start) else none

/-- The length that digits declare, read as a word. -/
def declaredWord? (ds : Bytes) : Option Nat :=
  if ds.all Decimal.isDigit then (wordOfDigits? ds).filter (· ≤ maxDeclared) else none

/-- What comes behind a colon at some position and a declared length, with words and checked
positions. There is no answer when a sum that has to be a word is none, or when a position is not
one of the data. -/
def payloadInWords (data : Bytes) (colon declared : Nat) :
    Option (Except Fault (Option (Nat × Bytes))) := do
  let start ← wordSum? colon 1
  match wordSum? declared start with
  | none => some (.error (.lengthOutOfRange declared))
  | some stop =>
    if stop < data.length then do
      let b ← data[stop]?
      if b = Bytes.comma then
        let n ← wordSum? stop 1
        let payload ← slice? data start stop
        some (.ok (some (n, payload)))
      else some (.error .missingComma)
    else some (.ok none)

/-- Splits the first netstring off with words and checked positions. -/
def splitNetstringInWords (data : Bytes) : Option (Except Fault (Option (Nat × Bytes))) :=
  match data.findIdx? (· == Bytes.colon) with
  | none => some (.ok none)
  | some colon =>
    if colon = 0 then some (.error .startsWithColon)
    else do
      let ds ← slice? data 0 colon
      match declaredWord? ds with
      | none => some (.error (.invalidLength (Utf8.decodeLossy ds)))
      | some declared => payloadInWords data colon declared

section

variable {data ds body : Bytes}

/-- Digits are read as a word just if their value is one. -/
theorem wordOfDigits?_eq (ds : Bytes) :
    wordOfDigits? ds = if Decimal.value ds < wordCount then some (Decimal.value ds) else none := by
  induction ds using List.reverseRecOn with
  | nil => rfl
  | append_singleton ds d ih =>
    have hconcat : wordOfDigits? (ds ++ [d]) = (wordOfDigits? ds).bind fun acc ↦
        (wordProduct? 10 acc).bind (wordSum? · (d.toNat - 0x30)) := by
      simp [wordOfDigits?, List.foldlM_append]
    rw [hconcat, ih, Decimal.value_concat]
    by_cases hacc : Decimal.value ds < wordCount
    · rw [if_pos hacc, Option.bind_some, wordProduct?]
      by_cases hproduct : 10 * Decimal.value ds < wordCount
      · rw [if_pos hproduct, Option.bind_some, wordSum?]
      · rw [if_neg hproduct, if_neg (by omega), Option.bind_none]
    · rw [if_neg hacc, if_neg (by omega), Option.bind_none]

/-- The length that digits declare is their value, whether or not it is a word. -/
theorem declaredLength_eq (ds : Bytes) :
    declaredLength ds = match declaredWord? ds with
      | some declared => .ok declared
      | none => .error (.invalidLength (Utf8.decodeLossy ds)) := by
  have hmax : maxDeclared < wordCount := by decide
  rw [declaredLength, declaredWord?, wordOfDigits?_eq]
  cases hall : ds.all Decimal.isDigit with
  | false => simp
  | true =>
    by_cases hle : Decimal.value ds ≤ maxDeclared
    · simp [hle, Nat.lt_of_le_of_lt hle hmax, Option.filter_some]
    · by_cases hword : Decimal.value ds < wordCount <;> simp [hle, hword, Option.filter_some]

theorem declaredWord?_le {declared : Nat} (h : declaredWord? ds = some declared) :
    declared ≤ maxDeclared := by
  simp only [declaredWord?, Option.ite_none_right_eq_some, Option.filter_eq_some_iff,
    decide_eq_true_eq] at h
  exact h.2.2

/-- Where no colon is, none is found. -/
theorem findIdx?_of_notMem (h : Bytes.colon ∉ data) : data.findIdx? (· == Bytes.colon) = none := by
  rw [List.findIdx?_eq_none_iff]
  intro b hb
  exact beq_eq_false_iff_ne.mpr fun heq ↦ h (heq ▸ hb)

/-- The first colon is where the data are cut. -/
theorem Headed.findIdx?_eq (h : Headed data ds body) :
    data.findIdx? (· == Bytes.colon) = some ds.length := by
  have hnone := findIdx?_of_notMem h.free
  rw [h.eq, List.findIdx?_append]
  simp [hnone, List.findIdx?_cons]

/-- The positions of what comes before the colon are those of the data. -/
theorem Headed.slice?_eq (h : Headed data ds body) : slice? data 0 ds.length = some ds := by
  have hlength := h.length_eq
  rw [slice?, if_pos ⟨Nat.zero_le _, by omega⟩, h.eq, List.take_left, List.drop_zero]

/-- The positions of a payload that has arrived are those of the data. -/
theorem Headed.slice?_payload (h : Headed data ds body) {declared : Nat}
    (hle : declared ≤ body.length) :
    slice? data (ds.length + 1) (declared + (ds.length + 1)) = some (body.take declared) := by
  have hlength := h.length_eq
  have hstop : declared + (ds.length + 1) = ds.length + (declared + 1) := by omega
  rw [slice?, if_pos ⟨Nat.le_add_left _ _, by omega⟩, h.eq, hstop, List.take_length_add_append,
    List.take_succ_cons, List.drop_length_add_append, List.drop_succ_cons, List.drop_zero]

/-- In memory words and checked positions are enough behind a colon and a declared length. -/
theorem Headed.payloadInWords_eq (h : Headed data ds body) (hne : ds ≠ []) {declared : Nat}
    (hd : declaredLength ds = .ok declared) (hle : declared ≤ maxDeclared)
    (hextent : data.length ≤ maxExtent) :
    payloadInWords data ds.length declared = some (splitNetstring data false) := by
  have hlength := h.length_eq
  have hcount : wordCount = 0x1_0000_0000_0000_0000 := rfl
  have hmax : maxExtent = 0x7fff_ffff_ffff_ffff := rfl
  have hstop := h.stop_lt hextent hle
  have hstart : wordSum? ds.length 1 = some (ds.length + 1) := if_pos (by omega)
  have hsum : wordSum? declared (ds.length + 1) = some (declared + (ds.length + 1)) :=
    if_pos (by omega)
  have hsplit := splitNetstring_of_declared h.free hne hd hstop body
  rw [← h.eq] at hsplit
  rw [hsplit]
  simp only [payloadInWords, hstart, hsum, bind, Option.bind_some]
  by_cases hshort : body.length ≤ declared
  · rw [if_neg (by omega), List.getElem?_eq_none hshort]
  · have hget : data[declared + (ds.length + 1)]? = body[declared]? := by
      rw [h.eq, List.getElem?_append_right (by omega), ← Nat.add_assoc, Nat.add_right_comm,
        Nat.add_sub_cancel_right, List.getElem?_cons_succ]
    have hn : wordSum? (declared + (ds.length + 1)) 1 = some (ds.length + 1 + declared + 1) :=
      (if_pos (by omega)).trans (by rw [Nat.add_comm declared])
    rw [if_pos (by omega), hget, List.getElem?_eq_getElem (Nat.lt_of_not_le hshort)]
    simp only [Option.bind_some, hn, h.slice?_payload (Nat.le_of_not_le hshort)]
    split <;> rfl

/-- In memory no sum of the splitting exceeds a word, and every position is one of the data. -/
theorem splitNetstringInWords_eq (hextent : data.length ≤ maxExtent) :
    splitNetstringInWords data = some (splitNetstring data false) := by
  by_cases hmem : Bytes.colon ∈ data
  · obtain ⟨ds, body, hheaded⟩ := exists_headed hmem
    rw [splitNetstringInWords, hheaded.findIdx?_eq]
    by_cases hne : ds = []
    · subst hne
      have hhead : data.head? = some Bytes.colon := by rw [hheaded.eq]; rfl
      rw [(Form.unnumbered hhead).splitNetstring_eq hextent]
      rfl
    · have hd := declaredLength_eq ds
      simp only [mt List.length_eq_zero_iff.mp hne, if_false, hheaded.slice?_eq, bind,
        Option.bind_some]
      cases hword : declaredWord? ds with
      | none =>
        rw [hword] at hd
        rw [hheaded.splitNetstring_eq hne hd]
      | some declared =>
        rw [hword] at hd
        exact hheaded.payloadInWords_eq hne hd (declaredWord?_le hword) hextent
  · rw [splitNetstringInWords, findIdx?_of_notMem hmem, (Form.headless hmem).splitNetstring_eq hextent]

end

/-! ## Splitting accepts the grammar -/

/-- In memory splitting finds a netstring just where one begins, and each fault just where its cause
is; in all other cases more bytes are needed. A length is never out of range, and nothing exceeds a
word or lies outside the data on the way. -/
theorem splitNetstring_by_grammar {data : Bytes} (hextent : data.length ≤ maxExtent) :
    (∀ n payload, splitNetstring data false = .ok (some (n, payload)) ↔
      IsNetstring data n payload) ∧
    (splitNetstring data false = .error .startsWithColon ↔ data.head? = some Bytes.colon) ∧
    (∀ shown, splitNetstring data false = .error (.invalidLength shown) ↔
      ∃ ds, Misnumbered data ds ∧ shown = Utf8.decodeLossy ds) ∧
    (splitNetstring data false = .error .missingComma ↔ Unclosed data) ∧
    (splitNetstring data false = .ok none ↔
      (∀ n payload, ¬ IsNetstring data n payload) ∧ data.head? ≠ some Bytes.colon ∧
        (∀ ds, ¬ Misnumbered data ds) ∧ ¬ Unclosed data) ∧
    (∀ length, splitNetstring data false ≠ .error (.lengthOutOfRange length)) ∧
    splitNetstringInWords data = some (splitNetstring data false) := by
  have hform : ∀ {result}, splitNetstring data false = result ↔ Form data result :=
    (form_iff hextent).symm
  refine ⟨fun n payload ↦ ?_, ?_, fun shown ↦ ?_, ?_, ?_, fun length hlength ↦ ?_,
    splitNetstringInWords_eq hextent⟩
  · constructor
    · intro h
      cases hform.mp h with
      | token h => exact h
    · exact fun h ↦ hform.mpr (.token h)
  · constructor
    · intro h
      cases hform.mp h with
      | unnumbered h => exact h
    · exact fun h ↦ hform.mpr (.unnumbered h)
  · constructor
    · intro h
      cases hform.mp h with
      | misnumbered hbad => exact ⟨_, hbad, rfl⟩
    · rintro ⟨ds, h, rfl⟩
      exact hform.mpr (.misnumbered h)
  · constructor
    · intro h
      cases hform.mp h with
      | unclosed h => exact h
    · exact fun h ↦ hform.mpr (.unclosed h)
  · constructor
    · intro hmore
      have hother : ∀ {result}, Form data result → result = .ok none :=
        fun h ↦ (hform.mpr h).symm.trans hmore
      refine ⟨fun n payload h ↦ ?_, fun h ↦ ?_, fun ds h ↦ ?_, fun h ↦ ?_⟩
      · cases hother (.token h)
      · cases hother (.unnumbered h)
      · cases hother (.misnumbered h)
      · cases hother (.unclosed h)
    · rintro ⟨htoken, hhead, hnumber, hclosed⟩
      obtain ⟨result, h⟩ := exists_form data
      cases h with
      | token h => exact absurd h (htoken _ _)
      | unnumbered h => exact absurd h hhead
      | misnumbered h => exact absurd h (hnumber _)
      | unclosed h => exact absurd h hclosed
      | headless hfree => exact hform.mpr (.headless hfree)
      | unfinished hdeclares hshort => exact hform.mpr (.unfinished hdeclares hshort)
  · cases hform.mp hlength

/-- Zeros before the digits and a colon in the payload do no harm: `003:a:b,` and one byte more. -/
theorem splitNetstring_by_grammar_zeros :
    ([0x30, 0x30, 0x33, 0x3a, 0x61, 0x3a, 0x62, 0x2c, 0x78] : Bytes).length ≤ maxExtent ∧
      IsNetstring [0x30, 0x30, 0x33, 0x3a, 0x61, 0x3a, 0x62, 0x2c, 0x78] 8 [0x61, 0x3a, 0x62] ∧
      splitNetstringInWords [0x30, 0x30, 0x33, 0x3a, 0x61, 0x3a, 0x62, 0x2c, 0x78] =
        some (.ok (some (8, [0x61, 0x3a, 0x62]))) := by
  have hextent : ([0x30, 0x30, 0x33, 0x3a, 0x61, 0x3a, 0x62, 0x2c, 0x78] : Bytes).length ≤
      maxExtent := by decide
  have hsplit : splitNetstring [0x30, 0x30, 0x33, 0x3a, 0x61, 0x3a, 0x62, 0x2c, 0x78] false =
      .ok (some (8, [0x61, 0x3a, 0x62])) := by decide
  obtain ⟨htoken, -, -, -, -, -, hwords⟩ := splitNetstring_by_grammar hextent
  exact ⟨hextent, (htoken _ _).mp hsplit, hwords.trans (congrArg some hsplit)⟩

end Sidecar.Codec
