import Mathlib.Data.List.Perm.Subperm
import Sidecar.Config.Json
import Sidecar.Proofs.Json.Reading

/-!
# Printed configurations are read back

Some fields of a configuration, listed in any order as a document, are read as these fields of it
and the defaults of all others (`readConfig_toDocument`). So a configuration that has its defaults in
the other fields is read back, in whatever layout the document was printed.
-/

namespace Sidecar.Config

open Json (Lexeme IsReadAs Layout)

/-- A configuration with some fields of another one. -/
def withFields (c d : Config) (fields : List Field) : Config :=
  fields.foldl (fun c field ↦ c.set field (d.get field)) c

/-- The lexemes of a field of a configuration. -/
def fieldLexemes (c : Config) (field : Field) : List Lexeme :=
  Json.entryLexemes (field.key, jsonValue field.shape (c.get field))

/-! ## Values -/

/-- A signed word is read back. -/
theorem Found.asIndex_toInt (n : Int64) : Found.asIndex (.integer n.toInt) = .ok n := by
  have hmin := n.le_toInt
  have hmax := n.toInt_lt
  rw [Found.asIndex, if_pos ⟨by omega, by omega⟩, Int64.ofInt_toInt]

/-- An unsigned word is read back. -/
theorem Found.asWord_toNat (wanted : Wanted) (n : UInt64) :
    Found.asWord wanted (.integer n.toNat) = .ok n := by
  have hmax := n.toNat_lt
  rw [Found.asWord, if_pos ⟨by omega, by omega⟩, Int.toNat_natCast, UInt64.ofNat_toNat]

/-- The values of fields can be read back. -/
theorem isReadable_jsonValue (shape : Shape) (v : shape.Value) : (jsonValue shape v).IsReadable := by
  have hword : ∀ n : UInt64, (Json.Scalar.integer n.toNat).IsReadable := by
    intro n
    have hmax := n.toNat_lt
    have hmaxWord : Json.maxWord = 2 ^ 64 - 1 := rfl
    exact ⟨by omega, by omega⟩
  cases shape with
  | text => trivial
  | texts =>
    intro s hs
    obtain ⟨text, -, rfl⟩ := List.mem_map.mp hs
    trivial
  | indices =>
    intro s hs
    obtain ⟨n, -, rfl⟩ := List.mem_map.mp hs
    have hmin := n.le_toInt
    have hmax := n.toInt_lt
    have hmaxWord : Json.maxWord = 2 ^ 64 - 1 := rfl
    exact ⟨by omega, by omega⟩
  | size => exact hword v
  | codec => trivial
  | millis => exact hword v

/-- The document of a configuration can be read back. -/
theorem isReadable_toDocument (c : Config) (fields : List Field) :
    ∀ entry ∈ c.toDocument fields, entry.2.IsReadable := by
  intro entry hentry
  obtain ⟨field, -, rfl⟩ := List.mem_map.mp hentry
  exact isReadable_jsonValue field.shape (c.get field)

/-- Pieces with a separator between them are the first one and the others behind separators. -/
theorem intercalate_cons_eq_flatMap {α β : Type} (separator : β) (f : α → List β) (x : α)
    (items : List α) : List.intercalate [separator] ((x :: items).map f) =
      f x ++ items.flatMap fun y ↦ separator :: f y := by
  induction items generalizing x with
  | nil => simp
  | cons y items ih =>
    rw [List.map_cons, List.map_cons, List.intercalate_cons_cons, ← List.map_cons, ih y]
    simp

section

variable {α : Type} {read : Found → Read α} {lex : α → Lexeme}

/-- Items behind commas are read one by one. -/
theorem readMoreItems_flatMap {items : List α}
    (h : ∀ x ∈ items, ∃ found, Found.ofLexeme? (lex x) = some found ∧ read found = .ok x)
    (rest : List Lexeme) :
    readMoreItems read ((items.flatMap fun x ↦ [.comma, lex x]) ++ .closeList :: rest) =
      .ok (items, rest) := by
  induction items with
  | nil => rfl
  | cons x items ih =>
    obtain ⟨found, hfound, hread⟩ := h x List.mem_cons_self
    have hmore := ih fun y hy ↦ h y (List.mem_cons_of_mem x hy)
    simp only [List.flatMap_cons, List.cons_append, List.nil_append, readMoreItems, hfound, hread,
      hmore]
    rfl

/-- An item that is found does not close its list. -/
theorem readList_cons {l : Lexeme} {found : Found} (h : Found.ofLexeme? l = some found)
    (ls : List Lexeme) : readList read (.openList :: l :: ls) = (do
      let (item, rest) ← readScalar read (l :: ls)
      let (items, rest) ← readMoreItems read rest
      .ok (item :: items, rest)) := by
  rw [readList]
  rintro _ ⟨⟩
  cases h

/-- A list is read item by item. -/
theorem readList_intercalate {items : List α}
    (h : ∀ x ∈ items, ∃ found, Found.ofLexeme? (lex x) = some found ∧ read found = .ok x)
    (rest : List Lexeme) :
    readList read (.openList :: (List.intercalate [.comma] (items.map fun x ↦ [lex x]) ++
      .closeList :: rest)) = .ok (items, rest) := by
  cases items with
  | nil => rfl
  | cons x items =>
    obtain ⟨found, hfound, hread⟩ := h x List.mem_cons_self
    have hmore := readMoreItems_flatMap (fun y hy ↦ h y (List.mem_cons_of_mem x hy)) rest
    have hfirst : ∀ ls, readScalar read (lex x :: ls) = .ok (x, ls) := by
      intro ls
      simp only [readScalar, hfound, hread]
      rfl
    rw [intercalate_cons_eq_flatMap, List.cons_append, List.nil_append, List.cons_append,
      readList_cons hfound, hfirst]
    simp only [bind, Except.bind, hmore]

end

/-- The value of a field is read back. -/
theorem readValue_jsonValue (shape : Shape) (v : shape.Value) (rest : List Lexeme) :
    readValue shape ((jsonValue shape v).lexemes ++ rest) = .ok (v, rest) := by
  cases shape with
  | text => rfl
  | texts =>
    have h : ∀ s ∈ v, ∃ found, Found.ofLexeme? (.text s) = some found ∧
        Found.asText found = .ok s := fun s _ ↦ ⟨.text s, rfl, rfl⟩
    have hread := readList_intercalate h rest
    simpa [readValue, jsonValue, Json.Value.lexemes, Json.Scalar.lexeme, Function.comp_def]
      using hread
  | indices =>
    have h : ∀ n ∈ v, ∃ found, Found.ofLexeme? (.number (.integer n.toInt)) = some found ∧
        Found.asIndex found = .ok n := fun n _ ↦ ⟨.integer n.toInt, rfl, Found.asIndex_toInt n⟩
    have hread := readList_intercalate h rest
    simpa [readValue, jsonValue, Json.Value.lexemes, Json.Scalar.lexeme, Function.comp_def]
      using hread
  | size =>
    have hword := Found.asWord_toNat .size v
    simp only [readValue, jsonValue, Json.Value.lexemes, Json.Scalar.lexeme, List.singleton_append,
      readScalar, Found.ofLexeme?, hword]
    rfl
  | codec =>
    simp only [readValue, jsonValue, Json.Value.lexemes, Json.Scalar.lexeme, List.singleton_append,
      readCodec, readCodecName, Codec.ofId_id]
    rfl
  | millis =>
    have hword := Found.asWord_toNat .millis v
    simp only [readValue, jsonValue, Json.Value.lexemes, Json.Scalar.lexeme, List.singleton_append,
      readScalar, Found.ofLexeme?, hword]
    rfl

/-! ## Records -/

/-- A field that was not set before is set. -/
theorem readEntry_fieldLexemes (c d : Config) {seen : List Field} {field : Field}
    (h : field ∉ seen) (rest : List Lexeme) :
    readEntry seen c (d.fieldLexemes field ++ rest) =
      .ok (field, c.set field (d.get field), rest) := by
  simp only [fieldLexemes, Json.entryLexemes, List.cons_append, readEntry, Field.ofKey?_key,
    if_neg h, readValue_jsonValue]
  rfl

/-- Fields behind commas are set one by one, as long as none is given twice. -/
theorem readMoreEntries_flatMap (fuel : Nat) (seen : List Field) (c d : Config)
    {fields : List Field} (hnodup : fields.Nodup) (hseen : ∀ field ∈ fields, field ∉ seen)
    (hfuel : fields.length ≤ fuel) (rest : List Lexeme) :
    readMoreEntries fuel seen c
        ((fields.flatMap fun field ↦ .comma :: d.fieldLexemes field) ++ .closeRecord :: rest) =
      .ok (c.withFields d fields, rest) := by
  induction fields generalizing fuel seen c with
  | nil => cases fuel <;> rfl
  | cons field fields ih =>
    obtain ⟨hfield, hnodup⟩ := List.nodup_cons.mp hnodup
    cases fuel with
    | zero => cases hfuel
    | succ fuel =>
      have hentry := readEntry_fieldLexemes c d (hseen field List.mem_cons_self)
        ((fields.flatMap fun field ↦ .comma :: d.fieldLexemes field) ++ .closeRecord :: rest)
      have hmore := ih fuel (field :: seen) (c.set field (d.get field)) hnodup (by
        intro other hother hmem
        rcases List.mem_cons.mp hmem with rfl | hmem
        · exact hfield hother
        · exact hseen other (List.mem_cons_of_mem field hother) hmem)
        (Nat.le_of_succ_le_succ hfuel)
      simp only [List.flatMap_cons, List.cons_append, List.append_assoc, readMoreEntries, bind,
        Except.bind, hentry, hmore]
      rfl

/-- No more different fields can be listed than there are. -/
theorem length_le_of_nodup {fields : List Field} (h : fields.Nodup) :
    fields.length ≤ Field.all.length :=
  (List.subperm_of_subset h fun field _ ↦ Field.mem_all field).length_le

/-- The document of some fields sets them and leaves the defaults of the others. -/
theorem readConfig_toDocument (c : Config) {fields : List Field} (h : fields.Nodup) :
    readConfig (Json.Document.lexemes (c.toDocument fields)) =
      .ok (({} : Config).withFields c fields, []) := by
  have hlexemes : Json.Document.lexemes (c.toDocument fields) = .openRecord ::
      (List.intercalate [.comma] (fields.map c.fieldLexemes) ++ [.closeRecord]) := by
    simp only [Json.Document.lexemes, toDocument, List.map_map, List.cons_append]
    rfl
  rw [hlexemes, readConfig]
  cases fields with
  | nil => rfl
  | cons field fields =>
    obtain ⟨hfield, hnodup⟩ := List.nodup_cons.mp h
    have hlength := length_le_of_nodup h
    have hentry := readEntry_fieldLexemes {} c (List.not_mem_nil (a := field))
      ((fields.flatMap fun field ↦ .comma :: c.fieldLexemes field) ++ [.closeRecord])
    have hmore := readMoreEntries_flatMap Field.all.length [field]
      (({} : Config).set field (c.get field)) c hnodup
      (fun other hother hmem ↦ hfield (List.mem_singleton.mp hmem ▸ hother))
      (Nat.le_of_succ_le hlength) []
    rw [intercalate_cons_eq_flatMap, List.append_assoc, readRecord]
    · simp only [bind, Except.bind, hentry, hmore]
      rfl
    · rintro _ ⟨⟩

/-- Of the fields of a configuration those that were listed are of the other one. -/
theorem get_withFields (c d : Config) (fields : List Field) (field : Field) :
    (c.withFields d fields).get field = if field ∈ fields then d.get field else c.get field := by
  induction fields generalizing c with
  | nil => rfl
  | cons first fields ih =>
    have hfirst := ih (c.set first (d.get first))
    rw [withFields, List.foldl_cons, ← withFields, hfirst]
    by_cases hmem : field ∈ fields
    · rw [if_pos hmem, if_pos (List.mem_cons_of_mem first hmem)]
    · by_cases heq : first = field
      · subst heq
        rw [if_neg hmem, get_set, if_pos List.mem_cons_self]
      · have hnot : field ∉ first :: fields := by
          rintro (_ | ⟨_, hlater⟩)
          · exact heq rfl
          · exact hmem hlater
        rw [if_neg hmem, if_neg hnot, get_set_of_ne c _ heq]

/-- Some fields of a configuration and the defaults of the others are all of it, if it has these
defaults. -/
theorem withFields_of_default {c : Config} {fields : List Field}
    (h : ∀ field, field ∉ fields → c.get field = ({} : Config).get field) :
    ({} : Config).withFields c fields = c := by
  refine ext_get fun field ↦ ?_
  rw [get_withFields]
  split
  · rfl
  · next hmem => exact (h field hmem).symm

/-- A text that is read as the lexemes of a valid configuration is read as this configuration, also
if blanks follow. -/
theorem ofJson_of_isReadAs {c : Config} {fields : List Field} {cs : List Char} (gap : List Char)
    (hvalid : c.validate = .ok ()) (hnodup : fields.Nodup)
    (hdefault : ∀ field, field ∉ fields → c.get field = ({} : Config).get field)
    (hread : IsReadAs cs (Json.Document.lexemes (c.toDocument fields)))
    (hgap : ∀ ch ∈ gap, Json.isGap ch = true) : ofJson (String.ofList (cs ++ gap)) = .ok c := by
  have hends : Json.EndsNumber gap := by
    have hnil : Json.EndsNumber [] := fun _ h ↦ absurd h (by simp)
    simpa using hnil.blanks hgap
  have hlexemes : Json.lexemes (String.ofList (cs ++ gap)).toList =
      Json.Document.lexemes (c.toDocument fields) := by
    have hblank := Json.lexemes_gap hgap []
    rw [List.append_nil] at hblank
    rw [String.toList_ofList, hread gap hends, hblank, Json.lexemes, List.append_nil]
  rw [ofJson, readWhole, hlexemes, readConfig_toDocument c hnodup, withFields_of_default hdefault]
  simp only [hvalid]
  rfl

end Sidecar.Config
