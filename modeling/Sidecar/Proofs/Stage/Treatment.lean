import Sidecar.Proofs.Stage.Dialogue
import Sidecar.Stage

/-!
# The treatment of a part

A visit looks at one part only: `treat` is what it does with it, and the other parts stay as they
are (`visit_of_get?`). When every part of a batch is selected, each is treated once, in order
(`process_of_all`).

A stage writes its tally and never reads it. `Tally.unbatched` is a tally without its number of
batches, and tallies that agree but for that number give dialogues that match (`treat_matches`).
-/

namespace Sidecar

/-- A tally without its number of batches. -/
def Tally.unbatched (t : Tally) : Tally := { t with batches := 0 }

namespace Stage

open Dialogue (Matches)

/-- Processes one part. -/
def treat (codec : Codec) (part : Part) (tally : Tally) : Dialogue (Part × Tally) := do
  let (data, failure, tally) ← processPart codec part.data tally.countPart
  match failure with
  | none => .done ({ part with data }, tally)
  | some failure => .done ({ part with data }.flag failure.message, tally)

/-- Treats parts in order. -/
def treatAll (codec : Codec) : List Part → Tally → Dialogue (List Part × Tally)
  | [], tally => .done ([], tally)
  | part :: rest, tally => do
    let (part, tally) ← treat codec part tally
    let (rest, tally) ← treatAll codec rest tally
    .done (part :: rest, tally)

/-! ## Payloads -/

/-- What has been gathered when a line got its reply. -/
def Gathered.add (g : Gathered) (line : Bytes) (reply : Reply) (tally : Tally) : Gathered :=
  match reply with
  | .ok answer => ⟨answer :: g.results, g.failure, tally⟩
  | .error failure => ⟨line :: g.results, some failure, tally⟩

/-- The empty piece at the end, behind some other, is not sent. -/
theorem exchangeLines_trailing {g : Gathered} (h : g.results ≠ []) :
    exchangeLines [[]] g = .done { g with results := [] :: g.results } := by
  obtain ⟨results, failure, tally⟩ := g
  cases results with
  | nil => exact absurd rfl h
  | cons r rs => rfl

/-- Every other line is sent, and its reply is kept. -/
theorem exchangeLines_cons {line : Bytes} {rest : List Bytes} {g : Gathered}
    (h : ¬ (line = [] ∧ rest = [] ∧ g.results ≠ [])) :
    exchangeLines (line :: rest) g =
      (exchange .lines line g.tally).bind fun (reply, tally) ↦
        exchangeLines rest (g.add line reply tally) := by
  rw [exchangeLines]
  · rw [Dialogue.bind_eq]
    congr 1
    funext x
    obtain ⟨reply, tally⟩ := x
    cases reply <;> rfl
  · rintro r rs failure tally rfl rfl rfl
    exact h ⟨rfl, rfl, List.cons_ne_nil r rs⟩

/-- With every codec but that of lines a part is one request. -/
theorem processPart_of_ne {codec : Codec} (h : codec ≠ .lines) (data : Bytes) (tally : Tally) :
    processPart codec data tally =
      (exchange codec data tally).bind fun (reply, tally) ↦ match reply with
        | .ok answer => .done (answer, none, tally)
        | .error failure => .done (data, some failure, tally) := by
  cases codec with
  | lines => exact absurd rfl h
  | lengthPrefixed => rfl
  | netstring => rfl

/-! ## Visits -/

/-- Changing a part that is there puts another one in its place. -/
theorem modify_of_get? {batch : Batch} {position : Nat} {part : Part}
    (h : batch.get? position = some part) (f : Part → Part) :
    batch.modify position f = ⟨batch.parts.set position (f part)⟩ := by
  rw [Batch.modify, List.modify_eq_set, show batch.parts[position]? = some part from h,
    Option.getD_some]

/-- A visit treats the part at its position and puts it back. -/
theorem visit_of_get? {codec : Codec} {position : Nat} {batch : Batch} {part : Part}
    (h : batch.get? position = some part) (tally : Tally) :
    visit codec position batch tally =
      (treat codec part tally).bind fun (part, tally) ↦
        .done (⟨batch.parts.set position part⟩, tally) := by
  have hlt : position < batch.parts.length := (List.getElem?_eq_some_iff.mp h).1
  simp only [visit, h, treat, Dialogue.bind_eq, Dialogue.bind_assoc]
  congr 1
  funext x
  obtain ⟨data, failure, tally⟩ := x
  have hset : batch.setData position data = ⟨batch.parts.set position { part with data }⟩ :=
    modify_of_get? h _
  cases failure with
  | none => simp only [hset, Dialogue.done_bind]
  | some failure =>
    have hget : (⟨batch.parts.set position { part with data }⟩ : Batch).get? position =
        some { part with data } := List.getElem?_set_self hlt
    simp only [hset, Dialogue.done_bind, Batch.flag, modify_of_get? hget, List.set_set]

/-- Visits to the positions behind some parts treat the parts there in order. -/
theorem visitAll_range' (codec : Codec) (before rest : List Part) (tally : Tally) :
    visitAll codec (List.range' before.length rest.length) ⟨before ++ rest⟩ tally =
      (treatAll codec rest tally).bind fun (parts, tally) ↦ .done (⟨before ++ parts⟩, tally) := by
  induction rest generalizing before tally with
  | nil => rfl
  | cons part rest ih =>
    have hget : (⟨before ++ part :: rest⟩ : Batch).get? before.length = some part :=
      by simp [Batch.get?]
    simp only [List.length_cons, List.range'_succ, visitAll, treatAll, visit_of_get? hget,
      Dialogue.bind_eq, Dialogue.bind_assoc, Dialogue.done_bind]
    congr 1
    funext x
    obtain ⟨part', tally⟩ := x
    have := ih (before ++ [part']) tally
    simp only [List.length_append, List.length_singleton, List.append_assoc,
      List.singleton_append] at this
    simp only [List.set_append_right _ _ (Nat.le_refl _), Nat.sub_self, List.set_cons_zero, this]

/-- Without a selection every part of a batch is treated once, in order. -/
theorem process_of_all {config : Config} (h : config.parts = []) (parts : List Part)
    (tally : Tally) :
    process config ⟨parts⟩ tally =
      (treatAll config.codecSend parts tally).bind fun (parts, tally) ↦
        .done (⟨parts⟩, tally.countBatch) := by
  have hrange : targets config ⟨parts⟩ = List.range' ([] : List Part).length parts.length := by
    rw [targets, if_pos h, List.range_eq_range']
    rfl
  simp only [process, hrange, Dialogue.bind_eq]
  rw [show (⟨parts⟩ : Batch) = ⟨[] ++ parts⟩ from rfl, visitAll_range', Dialogue.bind_assoc]
  rfl

/-! ## Tallies -/

/-- Two results that agree but for the number of batches in their tallies. -/
def Alike {α : Type} (x y : α × Tally) : Prop := x.1 = y.1 ∧ x.2.unbatched = y.2.unbatched

section Alike

variable {t t' : Tally} (h : t.unbatched = t'.unbatched)
include h

theorem unbatched_countPart : t.countPart.unbatched = t'.countPart.unbatched :=
  congrArg Tally.countPart h

theorem unbatched_countFailed : t.countFailed.unbatched = t'.countFailed.unbatched :=
  congrArg Tally.countFailed h

theorem unbatched_countAnswered : t.countAnswered.unbatched = t'.countAnswered.unbatched :=
  congrArg Tally.countAnswered h

/-- What is sent does not depend on the tally. -/
theorem exchange_matches (codec : Codec) (payload : Bytes) :
    Matches Alike (exchange codec payload t) (exchange codec payload t') := by
  unfold exchange
  cases codec.envelope payload.length with
  | error fault => exact .done ⟨rfl, unbatched_countFailed h⟩
  | ok envelope =>
    refine .ask fun reply ↦ ?_
    cases reply with
    | ok answer => exact .done ⟨rfl, unbatched_countAnswered h⟩
    | error failure => exact .done ⟨rfl, unbatched_countFailed h⟩

end Alike

/-- Two gatherings that agree but for the number of batches in their tallies. -/
def Gathered.Alike (g g' : Gathered) : Prop :=
  g.results = g'.results ∧ g.failure = g'.failure ∧ g.tally.unbatched = g'.tally.unbatched

/-- What is gathered of some lines does not depend on the tally. -/
theorem exchangeLines_matches (lines : List Bytes) {g g' : Gathered} (h : g.Alike g') :
    Matches Gathered.Alike (exchangeLines lines g) (exchangeLines lines g') := by
  induction lines generalizing g g' with
  | nil => exact .done h
  | cons line rest ih =>
    obtain ⟨hresults, hfailure, htally⟩ := h
    by_cases htrailing : line = [] ∧ rest = [] ∧ g.results ≠ []
    · obtain ⟨rfl, rfl, hne⟩ := htrailing
      rw [exchangeLines_trailing hne, exchangeLines_trailing (hresults ▸ hne)]
      exact .done ⟨congrArg (List.cons _) hresults, hfailure, htally⟩
    · rw [exchangeLines_cons htrailing, exchangeLines_cons (hresults ▸ htrailing)]
      refine (exchange_matches htally .lines line).bind ?_
      rintro ⟨reply, t⟩ ⟨_, t'⟩ ⟨rfl, ht⟩
      refine ih ?_
      cases reply with
      | ok answer => exact ⟨congrArg (List.cons _) hresults, hfailure, ht⟩
      | error failure => exact ⟨congrArg (List.cons _) hresults, rfl, ht⟩

/-- What a part becomes does not depend on the tally. -/
theorem processPart_matches (codec : Codec) (data : Bytes) {t t' : Tally}
    (h : t.unbatched = t'.unbatched) :
    Matches
      (fun x y ↦ x.1 = y.1 ∧ x.2.1 = y.2.1 ∧ x.2.2.unbatched = y.2.2.unbatched)
      (processPart codec data t) (processPart codec data t') := by
  by_cases hlines : codec = .lines
  · subst hlines
    have hstart : Gathered.Alike ⟨[], none, t⟩ ⟨[], none, t'⟩ := ⟨rfl, rfl, h⟩
    refine (exchangeLines_matches (Bytes.segments data) hstart).bind ?_
    rintro g g' ⟨hresults, hfailure, htally⟩
    exact .done ⟨by rw [hresults], hfailure, htally⟩
  · rw [processPart_of_ne hlines, processPart_of_ne hlines]
    refine (exchange_matches h codec data).bind ?_
    rintro ⟨reply, u⟩ ⟨_, u'⟩ ⟨rfl, hu⟩
    cases reply with
    | ok answer => exact .done ⟨rfl, rfl, hu⟩
    | error failure => exact .done ⟨rfl, rfl, hu⟩

/-- The treatment of a part does not depend on the tally. -/
theorem treat_matches (codec : Codec) (part : Part) {t t' : Tally}
    (h : t.unbatched = t'.unbatched) :
    Matches Alike (treat codec part t) (treat codec part t') := by
  refine (processPart_matches codec part.data (unbatched_countPart h)).bind ?_
  rintro ⟨data, failure, u⟩ ⟨_, _, u'⟩ ⟨rfl, rfl, hu⟩
  cases failure with
  | none => exact .done ⟨rfl, hu⟩
  | some failure => exact .done ⟨rfl, hu⟩

end Stage
end Sidecar
