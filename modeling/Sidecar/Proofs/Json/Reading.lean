import Sidecar.Json.Document
import Sidecar.Json.Lexeme

/-!
# Printed documents in lexemes

A document that is printed in any layout is read as the lexemes that it is made of
(`Document.isReadAs`). Texts and punctuation can be told from whatever follows them; a number
ends where no character of a number follows (`EndsNumber`), and in a document none does.
-/

namespace Sidecar.Json

/-- Whether what follows a number is not read as a part of it. -/
def EndsNumber (rest : List Char) : Prop :=
  ∀ c ∈ rest.head?, isDigit c = false ∧ c ≠ '.' ∧ c ≠ 'e' ∧ c ≠ 'E'

/-- A lexeme that can be read comes first. -/
theorem lexemes_cons {c : Char} {cs rest : List Char} {l : Lexeme} (hgap : isGap c = false)
    (h : readLexeme c cs = some (l, rest)) : lexemes (c :: cs) = l :: lexemes rest := by
  rw [lexemes, hgap, if_neg Bool.false_ne_true]
  split
  · next hnone =>
    rw [h] at hnone
    cases hnone
  · next hsome =>
    rw [h] at hsome
    cases hsome
    rfl

/-! ## Texts -/

/-- The two last digits of a character below U+0020, as it is printed, give it back. -/
theorem number?_of_control : ∀ n < 0x20, Hexadecimal.number?
    ['0', '0', Hexadecimal.digit (n / 16), Hexadecimal.digit (n % 16)] = some n := by
  decide

/-- A character is read as it is printed. -/
theorem readText_printChar (acc : List Char) (c : Char) (cs : List Char) :
    readText acc (printChar c ++ cs) = readText (c :: acc) cs := by
  unfold printChar
  split
  iterate 7 next => simp [readText, escape?]
  next hquote hslash _ _ _ _ _ =>
    split
    · next hcontrol =>
      have hnumber := number?_of_control c.toNat hcontrol
      have hhigh : isHighHalf c.toNat = false := by
        simp only [isHighHalf, Bool.and_eq_false_iff, decide_eq_false_iff_not]
        omega
      have hlow : isLowHalf c.toNat = false := by
        simp only [isLowHalf, Bool.and_eq_false_iff, decide_eq_false_iff_not]
        omega
      simp [readText, hnumber, hhigh, hlow]
    · next hcontrol =>
      rw [List.singleton_append, readText, if_neg]
      · rintro (hc | hc)
        · exact hslash hc
        · exact hcontrol hc
      · exact hquote
      · exact fun _ _ _ _ _ hc _ ↦ hslash hc
      · exact fun _ _ hc _ ↦ hslash hc

/-- A text is read as it is printed, up to its closing quote. -/
theorem readText_flatMap_printChar (cs acc rest : List Char) :
    readText acc (cs.flatMap printChar ++ '"' :: rest) =
      some (String.ofList (acc.reverse ++ cs), rest) := by
  induction cs generalizing acc with
  | nil => simp [readText]
  | cons c cs ih =>
    rw [List.flatMap_cons, List.append_assoc, readText_printChar, ih, List.reverse_cons,
      List.append_assoc, List.singleton_append]

/-- A printed text is one lexeme, whatever follows it. -/
theorem lexemes_printText (s : String) (rest : List Char) :
    lexemes (printText s ++ rest) = .text s :: lexemes rest := by
  have hread : readLexeme '"' (s.toList.flatMap printChar ++ '"' :: rest) = some (.text s, rest) := by
    simp only [readLexeme, readText_flatMap_printChar, List.reverse_nil, List.nil_append,
      String.ofList_toList, Option.map_some]
  have hprint : printText s ++ rest = '"' :: (s.toList.flatMap printChar ++ '"' :: rest) := by
    simp [printText]
  rw [hprint, lexemes_cons (by decide) hread]

/-! ## Numbers -/

/-- The digits of a number are digits. -/
theorem isDigit_of_mem_toDigits {n : Nat} {c : Char} (h : c ∈ Nat.toDigits 10 n) :
    isDigit c = true :=
  Nat.isDigit_of_mem_toDigits (by decide) (by decide) h

/-- The digits of a number denote it. -/
theorem natOfDigits_toDigits (n : Nat) : natOfDigits 0 (Nat.toDigits 10 n) = n :=
  Nat.ofDigitChars_toDigits (by decide) (by decide)

/-- A number is written without a zero in front, unless it is zero. -/
theorem head?_toDigits {n : Nat} (h : n ≠ 0) : (Nat.toDigits 10 n).head? ≠ some '0' := by
  induction n using Nat.strongRecOn with
  | ind n ih =>
    rw [Nat.toDigits_eq_if (by decide)]
    split
    · next hlt =>
      have hdigit : ∀ m < 10, m ≠ 0 → Nat.digitChar m ≠ '0' := by decide
      simpa using hdigit n hlt h
    · next hge =>
      have hfront := ih (n / 10) (by omega) (by omega)
      cases hdigits : Nat.toDigits 10 (n / 10) with
      | nil => exact absurd hdigits Nat.toDigits_ne_nil
      | cons d ds =>
        rw [hdigits] at hfront
        exact hfront

/-- A number of one digit is all that begins with a zero. -/
theorem length_toDigits_of_head {n : Nat} (h : (Nat.toDigits 10 n).head? = some '0') :
    (Nat.toDigits 10 n).length = 1 := by
  obtain rfl : n = 0 := Classical.not_not.mp fun hne ↦ head?_toDigits hne h
  rfl

section

variable {rest : List Char}

/-- The digits of a number end where it does. -/
theorem takeWhile_isDigit (n : Nat) (h : EndsNumber rest) :
    (Nat.toDigits 10 n ++ rest).takeWhile isDigit = Nat.toDigits 10 n ∧
      (Nat.toDigits 10 n ++ rest).dropWhile isDigit = rest := by
  have hdigits : ∀ c ∈ Nat.toDigits 10 n, isDigit c = true := fun _ ↦ isDigit_of_mem_toDigits
  rw [List.takeWhile_append_of_pos hdigits, List.dropWhile_append_of_pos hdigits]
  cases rest with
  | nil => exact ⟨List.append_nil _, rfl⟩
  | cons c cs =>
    have hc := (h c rfl).1
    simp [hc]

/-- No fraction follows a number that has ended. -/
theorem readFraction_of_endsNumber (h : EndsNumber rest) : readFraction rest = some (none, rest) := by
  unfold readFraction
  split
  · next cs => exact absurd rfl (h '.' rfl).2.1
  · rfl

/-- No exponent follows a number that has ended. -/
theorem readExponent_of_endsNumber (h : EndsNumber rest) : readExponent rest = some (none, rest) := by
  cases rest with
  | nil => rfl
  | cons c cs =>
    obtain ⟨-, -, hlower, hupper⟩ := h c rfl
    simp [readExponent, hlower, hupper]

/-- The digits of a number are read as they are printed. -/
theorem readNumber_toDigits (negative : Bool) (n : Nat) (h : EndsNumber rest) :
    readNumber negative (Nat.toDigits 10 n ++ rest) =
      (Parts.toNumber ⟨Nat.toDigits 10 n, none, none⟩ negative).map fun number ↦ (number, rest) := by
  obtain ⟨hdigits, hrest⟩ := takeWhile_isDigit n h
  have hwhole : ¬ (Nat.toDigits 10 n = [] ∨
      (Nat.toDigits 10 n).head? = some '0' ∧ (Nat.toDigits 10 n).length ≠ 1) := by
    rintro (hnil | ⟨hhead, hlength⟩)
    · exact Nat.toDigits_ne_nil hnil
    · exact hlength (length_toDigits_of_head hhead)
  simp only [readNumber, hdigits, hrest, if_neg hwhole, readFraction_of_endsNumber h,
    readExponent_of_endsNumber h]

/-- Whether a value without parts can be read back: an integer has to be a word. -/
def Scalar.IsReadable : Scalar → Prop
  | .text _ => True
  | .integer n => -0x8000_0000_0000_0000 ≤ n ∧ n ≤ (maxWord : Int)

/-- The lexeme of a value without parts. -/
def Scalar.lexeme : Scalar → Lexeme
  | .text s => .text s
  | .integer n => .number (.integer n)

/-- The integer that digits behind a sign denote. -/
theorem toNumber_toDigits {n : Int} (h : (Scalar.integer n).IsReadable) :
    Parts.toNumber ⟨Nat.toDigits 10 n.natAbs, none, none⟩ (decide (n < 0)) = some (.integer n) := by
  obtain ⟨hmin, hmax⟩ := h
  simp only [Parts.toNumber, natOfDigits_toDigits, Option.isNone_none, true_and]
  by_cases hsign : n < 0
  · have hvalue : -(n.natAbs : Int) = n := by omega
    rw [if_neg (by simp [hsign]), if_pos ⟨decide_eq_true hsign, by omega, by omega⟩, hvalue]
  · have hvalue : (n.natAbs : Int) = n := by omega
    rw [if_pos ⟨by simp [hsign], by omega⟩, hvalue]

/-- A digit begins a number. -/
theorem readLexeme_of_isDigit {c : Char} (h : isDigit c = true) (cs : List Char) :
    readLexeme c cs = (readNumber false (c :: cs)).map fun (n, cs) ↦ (.number n, cs) := by
  unfold readLexeme
  split
  case h_12 => exact if_pos h
  all_goals exact absurd h (by decide)

/-- No digit stands between lexemes for nothing. -/
theorem isGap_of_isDigit {c : Char} (h : isDigit c = true) : isGap c = false := by
  cases hgap : isGap c with
  | false => rfl
  | true =>
    simp only [isGap, Bool.or_eq_true, decide_eq_true_eq] at hgap
    rcases hgap with ((rfl | rfl) | rfl) | rfl <;> exact absurd h (by decide)

/-- A printed number is one lexeme, unless what follows it can be a part of it. -/
theorem lexemes_printInt {n : Int} (hn : (Scalar.integer n).IsReadable) (h : EndsNumber rest) :
    lexemes (printInt n ++ rest) = .number (.integer n) :: lexemes rest := by
  have hvalue := toNumber_toDigits hn
  by_cases hsign : n < 0
  · have hread : readLexeme '-' (Nat.toDigits 10 n.natAbs ++ rest) =
        some (.number (.integer n), rest) := by
      rw [decide_eq_true hsign] at hvalue
      simp only [readLexeme, readNumber_toDigits true _ h, hvalue, Option.map_some]
    rw [printInt, if_pos hsign, List.cons_append, lexemes_cons (by decide) hread]
  · rw [decide_eq_false hsign] at hvalue
    have hnumber := readNumber_toDigits false n.natAbs h
    rw [hvalue] at hnumber
    rw [printInt, if_neg hsign]
    cases hdigits : Nat.toDigits 10 n.natAbs with
    | nil => exact absurd hdigits Nat.toDigits_ne_nil
    | cons d ds =>
      have hd : isDigit d = true := isDigit_of_mem_toDigits (by rw [hdigits]; exact List.mem_cons_self)
      rw [hdigits, List.cons_append] at hnumber
      have hread : readLexeme d (ds ++ rest) = some (.number (.integer n), rest) := by
        rw [readLexeme_of_isDigit hd, hnumber]
        rfl
      rw [List.cons_append, lexemes_cons (isGap_of_isDigit hd) hread]

end

/-! ## Documents -/

/-- Characters that are read as some lexemes, and then what follows, if no number goes on there. -/
def IsReadAs (cs : List Char) (ls : List Lexeme) : Prop :=
  ∀ rest, EndsNumber rest → lexemes (cs ++ rest) = ls ++ lexemes rest

/-- Only blanks are written between lexemes. -/
structure Layout.IsBlank (layout : Layout) : Prop where
  line : ∀ depth, ∀ c ∈ layout.line depth, isGap c = true
  space : ∀ c ∈ layout.space, isGap c = true

/-- Everything in one line leaves no blanks. -/
theorem Layout.isBlank_compact : Layout.compact.IsBlank :=
  ⟨fun _ _ h ↦ absurd h List.not_mem_nil, fun _ h ↦ absurd h List.not_mem_nil⟩

/-- Lines of their own are begun with blanks. -/
theorem Layout.isBlank_pretty : Layout.pretty.IsBlank := by
  refine ⟨fun depth c h ↦ ?_, fun c h ↦ ?_⟩
  · rcases List.mem_cons.mp h with rfl | h
    · rfl
    · rw [List.eq_of_mem_replicate h]
      rfl
  · rw [List.mem_singleton.mp h]
    rfl

/-- The lexemes of a value. -/
def Value.lexemes : Value → List Lexeme
  | .scalar s => [s.lexeme]
  | .list items =>
    .openList :: List.intercalate [.comma] (items.map fun s ↦ [s.lexeme]) ++ [.closeList]

/-- The lexemes of an entry. -/
def entryLexemes (entry : String × Value) : List Lexeme :=
  .text entry.1 :: .colon :: entry.2.lexemes

/-- The lexemes of a document. -/
def Document.lexemes (d : Document) : List Lexeme :=
  .openRecord :: List.intercalate [.comma] (d.map entryLexemes) ++ [.closeRecord]

/-- Whether a value can be read back. -/
def Value.IsReadable : Value → Prop
  | .scalar s => s.IsReadable
  | .list items => ∀ s ∈ items, s.IsReadable

section

variable {layout : Layout} {gap rest : List Char}

/-- Blanks are not read. -/
theorem lexemes_gap (h : ∀ c ∈ gap, isGap c = true) (cs : List Char) :
    Json.lexemes (gap ++ cs) = Json.lexemes cs := by
  induction gap with
  | nil => rfl
  | cons c gap ih =>
    rw [List.cons_append, Json.lexemes, if_pos (h c List.mem_cons_self)]
    exact ih fun d hd ↦ h d (List.mem_cons_of_mem c hd)

/-- A number ends before blanks. -/
theorem EndsNumber.blanks (h : EndsNumber rest) (hgap : ∀ c ∈ gap, isGap c = true) :
    EndsNumber (gap ++ rest) := by
  cases gap with
  | nil => exact h
  | cons c gap =>
    rintro d ⟨⟩
    have hd := hgap c List.mem_cons_self
    simp only [isGap, Bool.or_eq_true, decide_eq_true_eq] at hd
    rcases hd with ((rfl | rfl) | rfl) | rfl <;> decide

/-- A number ends before a comma and before a bracket. -/
theorem endsNumber_cons {c : Char} (h : c ∈ [',', ']', '}']) (cs : List Char) :
    EndsNumber (c :: cs) := by
  rintro d ⟨⟩
  simp only [List.mem_cons, List.not_mem_nil, or_false] at h
  rcases h with rfl | rfl | rfl <;> decide

/-- A value without parts is read as its lexeme. -/
theorem Scalar.isReadAs {s : Scalar} (h : s.IsReadable) : IsReadAs s.print [s.lexeme] := by
  intro rest hrest
  cases s with
  | text s => exact lexemes_printText s rest
  | integer n => exact lexemes_printInt h hrest

/-- Items with commas between them are read one by one. -/
theorem isReadAs_intercalate {α : Type} {print : α → List Char} {lex : α → List Lexeme}
    {items : List α} (h : ∀ x ∈ items, IsReadAs (print x) (lex x))
    (hgap : ∀ c ∈ gap, isGap c = true) :
    IsReadAs (List.intercalate [','] (items.map fun x ↦ gap ++ print x))
      (List.intercalate [.comma] (items.map lex)) := by
  intro rest hrest
  induction items with
  | nil => rfl
  | cons x items ih =>
    have hx := h x List.mem_cons_self
    cases items with
    | nil =>
      simp only [List.map_cons, List.map_nil, List.intercalate_singleton, List.append_assoc,
        lexemes_gap hgap, hx rest hrest]
    | cons y items =>
      have hmore := ih fun z hz ↦ h z (List.mem_cons_of_mem x hz)
      simp only [List.map_cons, List.intercalate_cons_cons, List.append_assoc, lexemes_gap hgap,
        List.cons_append, List.nil_append] at hmore ⊢
      rw [hx _ (endsNumber_cons (by simp) _), lexemes_cons (by decide) rfl, hmore]

/-- Printed items are read one by one between their brackets. -/
theorem isReadAs_printItems {α : Type} {print : α → List Char} {lex : α → List Lexeme}
    {items : List α} {first last : Char} {opening closing : Lexeme} (hblank : layout.IsBlank)
    (depth : Nat) (hfirst : ∀ cs, Json.lexemes (first :: cs) = opening :: Json.lexemes cs)
    (hlast : ∀ cs, Json.lexemes (last :: cs) = closing :: Json.lexemes cs)
    (hmem : last ∈ [',', ']', '}']) (h : ∀ x ∈ items, IsReadAs (print x) (lex x)) :
    IsReadAs (printItems layout depth first last (items.map print))
      (opening :: List.intercalate [.comma] (items.map lex) ++ [closing]) := by
  intro rest _
  cases items with
  | nil => simp [printItems, hfirst, hlast]
  | cons x items =>
    have hends : EndsNumber (layout.line depth ++ last :: rest) :=
      (endsNumber_cons hmem rest).blanks (hblank.line depth)
    have hitems := isReadAs_intercalate h (hblank.line (depth + 1)) _ hends
    rw [lexemes_gap (hblank.line depth), hlast] at hitems
    have hprint : printItems layout depth first last ((x :: items).map print) ++ rest =
        first :: (List.intercalate [','] ((x :: items).map fun x ↦
          layout.line (depth + 1) ++ print x) ++ (layout.line depth ++ last :: rest)) := by
      simp [printItems, Function.comp_def]
    rw [hprint, hfirst, hitems]
    simp

/-- A value is read as its lexemes. -/
theorem Value.isReadAs (hblank : layout.IsBlank) (depth : Nat) {v : Value} (h : v.IsReadable) :
    IsReadAs (v.print layout depth) v.lexemes := by
  cases v with
  | scalar s => exact Scalar.isReadAs h
  | list items =>
    exact isReadAs_printItems hblank depth (fun _ ↦ lexemes_cons (by decide) rfl)
      (fun _ ↦ lexemes_cons (by decide) rfl) (by simp) fun s hs ↦ Scalar.isReadAs (h s hs)

/-- An entry is read as its lexemes. -/
theorem isReadAs_printEntry (hblank : layout.IsBlank) {entry : String × Value}
    (h : entry.2.IsReadable) : IsReadAs (printEntry layout entry) (entryLexemes entry) := by
  intro rest hrest
  have hvalue := entry.2.isReadAs hblank 1 h rest hrest
  simp only [printEntry, entryLexemes, List.append_assoc, List.cons_append, lexemes_printText]
  rw [lexemes_cons (by decide) rfl, lexemes_gap hblank.space, hvalue]

/-- A document is read as its lexemes, in whatever layout it was printed. -/
theorem Document.isReadAs (hblank : layout.IsBlank) {d : Document}
    (h : ∀ entry ∈ d, entry.2.IsReadable) : IsReadAs (d.print layout) d.lexemes :=
  isReadAs_printItems hblank 0 (fun _ ↦ lexemes_cons (by decide) rfl)
    (fun _ ↦ lexemes_cons (by decide) rfl) (by simp) fun entry hentry ↦
      isReadAs_printEntry hblank (h entry hentry)

end

end Sidecar.Json
