import Sidecar.Proofs.Stream.Chunking

/-!
# Reading comes to an end

A call for the next item goes round a loop: it polls, and where bytes are wanted it reads once and
goes on. `round` is one time round, and `rounds` goes round up to some number of times. Each round
that goes on leaves less to do: there is less to come from the source, or the end of the stream has
been met (`toDo_round`). So a call needs no more rounds than the source has bytes and events, and
two (`rounds_eq_next`).

Every token takes bytes of the stream, so there are at most as many tokens as bytes
(`Codec.decode_bounded`). What comes after them is one failure or the end, and from then on a call
comes to nothing and leaves the source alone (`calls_bounded`).
-/

namespace Sidecar

/-! ## Tokens take bytes -/

namespace Codec

open Tokenizer (Item)

variable {codec : Codec} {limit : Nat} {ending : Option IoFault}

/-- Items that are tokens, at most so many, and at most one failure behind them. -/
def Bounded (n : Nat) (items : List Item) : Prop :=
  ∃ (tokens : List Bytes) (failure : Option Failure),
    items = tokens.map .ok ++ (failure.map .error).toList ∧ tokens.length ≤ n

/-- A failure alone is no token. -/
theorem bounded_failure (n : Nat) (failure : Failure) : Bounded n [.error failure] :=
  ⟨[], some failure, rfl, Nat.zero_le n⟩

/-- What is left over at the end makes a token only if it has a byte. -/
theorem conclude_bounded (rest : Bytes) :
    Bounded rest.length (codec.conclude limit ending rest) := by
  unfold conclude
  split
  · exact bounded_failure _ _
  · cases ending with
    | some fault => exact bounded_failure _ _
    | none =>
      cases hsplit : codec.split rest true with
      | error fault => exact ⟨[], none, rfl, Nat.zero_le _⟩
      | ok found =>
        cases found with
        | none => exact ⟨[], none, rfl, Nat.zero_le _⟩
        | some found =>
          obtain ⟨n, token⟩ := found
          have hn := split_consumes hsplit
          exact ⟨[token], none, rfl, Nat.le_trans hn.1 hn.2⟩

/-- A stream has at most as many tokens as bytes, and at most one failure, which comes last. -/
theorem decode_bounded (rest : Bytes) : Bounded rest.length (codec.decode limit ending rest) := by
  induction rest using decode.induct codec limit with
  | case1 rest fault hsplit =>
    rw [decode_of_fault hsplit]
    exact bounded_failure _ _
  | case2 rest n token hsplit ih =>
    obtain ⟨tokens, failure, hitems, hle⟩ := ih
    have hn := split_consumes hsplit
    rw [List.length_take] at hn
    rw [List.length_drop] at hle
    refine ⟨token :: tokens, failure, ?_, ?_⟩
    · rw [decode_of_token hsplit, hitems]
      rfl
    · rw [List.length_cons]
      omega
  | case3 rest hsplit =>
    rw [decode_of_more hsplit]
    exact conclude_bounded rest

end Codec

namespace Tokenizer

variable {r r' : Tokenizer} {source source' : Source} {item : Item}

/-! ## Rounds -/

/-- Goes round once: what the call comes to, or where it goes on. -/
def round (r : Tokenizer) (source : Source) :
    Sum (Option Item × Tokenizer × Source) (Tokenizer × Source) :=
  match r.poll with
  | (.item item, r) => .inl (some item, r, source)
  | (.ended, r) => .inl (none, r, source)
  | (.wants offered, r) =>
    match source.read offered with
    | (.ok bytes, source) => .inr (r.receive bytes, source)
    | (.error fault, source) =>
      if fault.kind = .interrupted then .inr (r, source)
      else .inl (some (.error (.io fault)), { r with finished := true }, source)

/-- Goes round until the call comes to something; the number bounds the rounds. -/
def rounds : Nat → Tokenizer → Source → Option (Option Item × Tokenizer × Source)
  | 0, _, _ => none
  | n + 1, r, source =>
    match r.round source with
    | .inl result => some result
    | .inr (r, source) => rounds n r source

/-- What there is still to read: nothing at the end of the stream, and before it what the source has
and the end. -/
def toDo (r : Tokenizer) (source : Source) : Nat := if r.atEnd then 0 else source.remaining + 1

/-- A round that goes on leaves less to do. -/
theorem toDo_round (h : r.round source = .inr (r', source')) :
    r'.toDo source' < r.toDo source := by
  unfold round at h
  split at h
  · cases h
  · cases h
  · next offered r₁ hpoll =>
    obtain ⟨hbefore, -, hafter, -, -⟩ := poll_wants hpoll
    have hall : r.toDo source = source.remaining + 1 := if_neg (by simp [hbefore])
    split at h
    · next bytes source₁ hread =>
      cases h
      have hless := @Source.remaining_read_of_ok source offered bytes (by rw [hread])
      rw [hread] at hless
      cases bytes with
      | nil =>
        have hend : (r₁.receive []).toDo source' = 0 := if_pos rfl
        omega
      | cons b rest =>
        have hmore : (r₁.receive (b :: rest)).toDo source' = source'.remaining + 1 :=
          if_neg Bool.false_ne_true
        rw [List.length_cons] at hless
        dsimp only at hless
        omega
    · next fault source₁ hread =>
      split at h
      · cases h
        have hless := @Source.remaining_read_of_error source offered fault (by rw [hread])
        rw [hread] at hless
        have hmore : r'.toDo source' = source'.remaining + 1 := if_neg (by simp [hafter])
        dsimp only at hless
        omega
      · cases h

/-- A call comes to what its first round comes to, or goes on behind it. -/
theorem next_eq_round (r : Tokenizer) (source : Source) :
    r.next source =
      match r.round source with
      | .inl result => result
      | .inr (r, source) => r.next source := by
  rcases hpoll : r.poll with ⟨poll, r'⟩
  cases poll with
  | item item => simp only [round, hpoll, next_of_poll_item hpoll]
  | ended => simp only [round, hpoll, next_of_poll_ended hpoll]
  | wants offered =>
    rcases hread : source.read offered with ⟨result, source'⟩
    cases result with
    | ok bytes => simp only [round, hpoll, hread, next_of_read_ok hpoll hread]
    | error fault =>
      simp only [round, hpoll, hread, next_of_read_error hpoll hread]
      split <;> rfl

/-- A call comes to something in more rounds than there is to do. -/
theorem rounds_of_toDo {n : Nat} (h : r.toDo source < n) :
    rounds n r source = some (r.next source) := by
  induction n generalizing r source with
  | zero => exact absurd h (Nat.not_lt_zero _)
  | succ n ih =>
    rw [rounds, next_eq_round]
    cases hround : r.round source with
    | inl result => rfl
    | inr rest =>
      obtain ⟨r', source'⟩ := rest
      have hless := toDo_round hround
      exact ih (by omega)

/-- As many rounds as the source has bytes and events, and two, are enough for a call. -/
theorem rounds_eq_next (r : Tokenizer) (source : Source) :
    rounds (source.remaining + 2) r source = some (r.next source) := by
  apply rounds_of_toDo
  unfold toDo
  split <;> omega

/-! ## Calls in a row -/

/-- What some calls in a row come to, and the reader and source after them. -/
def calls : Nat → Tokenizer → Source → List (Option Item) × Tokenizer × Source
  | 0, r, source => ([], r, source)
  | n + 1, r, source =>
    let (result, r, source) := r.next source
    let (rest, last) := calls n r source
    (result :: rest, last)

/-- The first of some calls comes before the others. -/
theorem calls_succ {result : Option Item} (h : r.next source = (result, r', source')) (n : Nat) :
    calls (n + 1) r source = (result :: (calls n r' source').1, (calls n r' source').2) := by
  rw [calls, h]

/-- A poll that neither hands out a token nor wants bytes is the last to do anything. -/
theorem finished_of_poll {poll : Poll} (hpoll : r.poll = (poll, r'))
    (htoken : ∀ token, poll ≠ .item (.ok token)) (hwants : ∀ offered, poll ≠ .wants offered) :
    r'.finished = true := by
  unfold Tokenizer.poll at hpoll
  split at hpoll
  · next hfinished =>
    cases hpoll
    exact hfinished
  · split at hpoll
    · cases hpoll
      rfl
    · cases hpoll
      exact absurd rfl (htoken _)
    · split at hpoll
      · cases hpoll
        rfl
      · simp only [offer] at hpoll
        split at hpoll
        · cases hpoll
          exact absurd rfl (hwants _)
        · split at hpoll
          · cases hpoll
            rfl
          · cases hpoll
            exact absurd rfl (hwants _)

/-- A call that hands out no token is the last to do anything. -/
theorem finished_of_next (h : ∀ token, (r.next source).1 ≠ some (.ok token)) :
    (r.next source).2.1.finished = true := by
  induction r, source using next.induct with
  | case1 r source item r' hpoll =>
    rw [next_of_poll_item hpoll] at h ⊢
    apply finished_of_poll hpoll
    · rintro token ⟨⟩
      exact h token rfl
    · rintro offered ⟨⟩
  | case2 r source r' hpoll =>
    rw [next_of_poll_ended hpoll]
    apply finished_of_poll hpoll
    · rintro token ⟨⟩
    · rintro offered ⟨⟩
  | case3 r source offered r' hpoll bytes source' hread ih =>
    rw [next_of_read_ok hpoll hread] at h ⊢
    exact ih h
  | case4 r source offered r' hpoll fault source' hread hkind ih =>
    rw [next_of_read_error hpoll hread, if_pos hkind] at h ⊢
    exact ih h
  | case5 r source offered r' hpoll fault source' hread hkind =>
    rw [next_of_read_error hpoll hread, if_neg hkind]

/-- Calls on a reader that is finished come to nothing, and change neither it nor the source. -/
theorem calls_of_finished (h : r.finished = true) (source : Source) (n : Nat) :
    calls n r source = (List.replicate n none, r, source) := by
  induction n with
  | zero => rfl
  | succ n ih => rw [calls_succ (next_of_finished h source), ih, List.replicate_succ]

/-- A reader whose next call comes to nothing has no items. -/
theorem items_of_next_none (h : r.next source = (none, r', source')) :
    (r.items source).1 = [] := by
  rw [items]
  split <;> simp_all

/-- The item of the next call comes before the others. -/
theorem items_of_next_some (h : r.next source = (some item, r', source')) :
    (r.items source).1 = item :: (r'.items source').1 := by
  rw [items]
  split <;> simp_all

/-- Of what comes to nothing behind some results, one more does not matter to as many calls. -/
theorem take_nothing (results : List (Option Item)) (n : Nat) :
    (results ++ none :: List.replicate n none).take n =
      (results ++ List.replicate n none).take n := by
  rw [← List.replicate_succ, List.replicate_succ', ← List.append_assoc,
    List.take_append_of_le_length]
  rw [List.length_append, List.length_replicate]
  exact Nat.le_add_left ..

/-- Calls come to the items, one after the other, and then to nothing. -/
theorem calls_eq_items (n : Nat) (r : Tokenizer) (source : Source) :
    (calls n r source).1 = ((r.items source).1.map some ++ List.replicate n none).take n := by
  induction n generalizing r source with
  | zero => rfl
  | succ n ih =>
    rcases hnext : r.next source with ⟨result, r', source'⟩
    rw [calls_succ hnext]
    cases result with
    | none =>
      have hlast := @finished_of_next r source
      rw [hnext] at hlast
      have hfinished : r'.finished = true := hlast (by simp)
      rw [items_of_next_none hnext, calls_of_finished hfinished, List.map_nil, List.nil_append,
        List.take_of_length_le (Nat.le_of_eq List.length_replicate), List.replicate_succ]
    | some item =>
      rw [items_of_next_some hnext, ih, List.map_cons, List.cons_append, List.take_succ_cons,
        List.replicate_succ, take_nothing]

/-- Once a call has handed out no token, the calls behind it change nothing. -/
theorem calls_of_last {m n : Nat} {result : Option Item}
    (hlast : (calls (m + 1) r source).1[m]? = some result)
    (htoken : ∀ token, result ≠ some (.ok token)) (h : m < n) :
    (calls n r source).2 = (calls (m + 1) r source).2 := by
  induction m generalizing n r source with
  | zero =>
    obtain ⟨k, rfl⟩ : ∃ k, n = k + 1 := ⟨n - 1, by omega⟩
    rcases hnext : r.next source with ⟨first, r', source'⟩
    rw [calls_succ hnext, List.getElem?_cons_zero, Option.some.injEq] at hlast
    have hfinished := @finished_of_next r source
    rw [hnext] at hfinished
    have hfinished : r'.finished = true := hfinished (hlast ▸ htoken)
    rw [calls_succ hnext, calls_succ hnext, calls_of_finished hfinished,
      calls_of_finished hfinished]
  | succ m ih =>
    obtain ⟨k, rfl⟩ : ∃ k, n = k + 1 := ⟨n - 1, by omega⟩
    rcases hnext : r.next source with ⟨first, r', source'⟩
    rw [calls_succ hnext, List.getElem?_cons_succ] at hlast
    rw [calls_succ hnext, calls_succ hnext]
    exact ih hlast (by omega)

/-- What calls come to that hand out some tokens, and then a failure, if there is one. -/
def resultsOf (tokens : List Bytes) (failure : Option Failure) : List (Option Item) :=
  tokens.map (some ∘ Except.ok) ++ [failure.map Except.error]

/-- Calls hand out the tokens, and then come to the failure or to nothing. -/
theorem calls_eq_resultsOf {tokens : List Bytes} {failure : Option Failure}
    (hitems : (r.items source).1 = tokens.map .ok ++ (failure.map .error).toList) (n : Nat) :
    (calls n r source).1 = (resultsOf tokens failure ++ List.replicate n none).take n := by
  rw [calls_eq_items, hitems]
  simp only [List.map_append, List.map_map, resultsOf, List.append_assoc]
  cases failure with
  | none => exact (take_nothing _ n).symm
  | some failure => rfl

/-- Whatever the source does, a call comes to something after at most as many rounds as there are
bytes and events in the source, and two. A token that is split off takes at least one byte, and
never more than there are. So calls hand out at most as many tokens as the source serves bytes; the
next one comes to a failure or to nothing, and all that follow come to nothing and leave the reader
and the source as they are. -/
theorem calls_bounded (codec : Codec) (maxBuffer : Nat) (source : Source) :
    (∀ data atEnd n token, codec.split data atEnd = .ok (some (n, token)) →
      0 < n ∧ n ≤ data.length) ∧
    (∀ (r : Tokenizer) (s : Source), rounds (s.remaining + 2) r s = some (r.next s)) ∧
    ∃ (tokens : List Bytes) (failure : Option Failure), tokens.length ≤ source.stream.length ∧
      ∀ n,
        (calls n (fresh codec maxBuffer) source).1 =
          (resultsOf tokens failure ++ List.replicate n none).take n ∧
        (tokens.length < n → (calls n (fresh codec maxBuffer) source).2 =
          (calls (tokens.length + 1) (fresh codec maxBuffer) source).2) := by
  have hbounded : Codec.Bounded source.stream.length
      (codec.decode (max maxBuffer 1) source.ending source.stream) := Codec.decode_bounded _
  obtain ⟨tokens, failure, hitems, hle⟩ := hbounded
  have hdecode := ((reading_fresh codec maxBuffer).items_eq source).1
  have hcalls (n : Nat) := calls_eq_resultsOf (hdecode.trans hitems) n
  have hlast : (calls (tokens.length + 1) (fresh codec maxBuffer) source).1[tokens.length]? =
      some (failure.map .error) := by
    rw [hcalls]
    simp [resultsOf]
  refine ⟨fun _ _ _ _ ↦ Codec.split_consumes, rounds_eq_next, tokens, failure, hle, fun n ↦
    ⟨hcalls n, calls_of_last hlast ?_⟩⟩
  intro token
  cases failure <;> simp

end Tokenizer
end Sidecar
