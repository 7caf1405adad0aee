import Sidecar.Stage.Dialogue

/-!
# Reasoning about dialogues

Two dialogues match when they ask for the same things, whatever the replies are, and end with
results that are related. Played against the same peer they leave it in the same state
(`Matches.run`). A dialogue meets a contract when all that it asks for is allowed and, if the
replies are among those that are allowed, its result has some property; a peer that keeps to the
contract gets such a result from it (`Meets.run`). Both go through sequences.
-/

namespace Sidecar.Dialogue

variable {α β γ δ : Type}

/-! ## Sequences -/

@[simp] theorem bind_eq (d : Dialogue α) (f : α → Dialogue β) : (d >>= f) = d.bind f := rfl

@[simp] theorem done_bind (a : α) (f : α → Dialogue β) : (done a).bind f = f a := rfl

@[simp] theorem ask_bind (request : Request) (next : Reply → Dialogue α) (f : α → Dialogue β) :
    (ask request next).bind f = .ask request fun reply ↦ (next reply).bind f := rfl

/-- It does not matter how a sequence of dialogues is bracketed. -/
theorem bind_assoc (d : Dialogue α) (f : α → Dialogue β) (g : β → Dialogue γ) :
    (d.bind f).bind g = d.bind fun a ↦ (f a).bind g := by
  induction d with
  | done a => rfl
  | ask request next ih => exact congrArg (ask request) (funext ih)

/-- A dialogue followed by nothing is itself. -/
theorem bind_done (d : Dialogue α) : d.bind done = d := by
  induction d with
  | done a => rfl
  | ask request next ih => exact congrArg (ask request) (funext ih)

/-- The requests of two dialogues in a row are those of the one and then those of the other. -/
theorem transcript_bind {σ : Type} (peer : Request → σ → Reply × σ) (d : Dialogue α)
    (f : α → Dialogue β) (state : σ) :
    (d.bind f).transcript peer state =
      d.transcript peer state ++
        (f (d.run peer state).1).transcript peer (d.run peer state).2 := by
  induction d generalizing state with
  | done a => rfl
  | ask request next ih =>
    simp only [ask_bind, transcript, run, List.cons_append, ih]

/-! ## Matching -/

/-- Two dialogues ask for the same things and end with related results. -/
inductive Matches (R : α → β → Prop) : Dialogue α → Dialogue β → Prop where
  | done {a : α} {b : β} (h : R a b) : Matches R (.done a) (.done b)
  | ask {request : Request} {next : Reply → Dialogue α} {next' : Reply → Dialogue β}
      (h : ∀ reply, Matches R (next reply) (next' reply)) :
      Matches R (.ask request next) (.ask request next')

namespace Matches

variable {R : α → β → Prop} {S : γ → δ → Prop} {d : Dialogue α} {d' : Dialogue β}

/-- What follows two dialogues that match matches too, if it does so after related results. -/
theorem bind {f : α → Dialogue γ} {f' : β → Dialogue δ} (h : Matches R d d')
    (hf : ∀ a b, R a b → Matches S (f a) (f' b)) : Matches S (d.bind f) (d'.bind f') := by
  induction h with
  | done h => exact hf _ _ h
  | ask _ ih => exact .ask ih

/-- A peer sees no difference between dialogues that match. -/
theorem run {σ : Type} (h : Matches R d d') (peer : Request → σ → Reply × σ) (state : σ) :
    R (d.run peer state).1 (d'.run peer state).1 ∧
      (d.run peer state).2 = (d'.run peer state).2 := by
  induction h generalizing state with
  | done h => exact ⟨h, rfl⟩
  | ask _ ih => exact ih _ _

end Matches

/-! ## On the way -/

/-- A dialogue that was begun with a peer comes, after some requests and replies, to what is left
of it. -/
inductive Leads {σ : Type} (peer : Request → σ → Reply × σ) (d : Dialogue α) (state : σ) :
    List (Request × Reply) → Dialogue α → σ → Prop where
  | start : Leads peer d state [] d state
  | reply {talk : List (Request × Reply)} {request : Request} {next : Reply → Dialogue α}
      {mid : σ} (h : Leads peer d state talk (.ask request next) mid) :
      Leads peer d state (talk ++ [(request, (peer request mid).1)])
        (next (peer request mid).1) (peer request mid).2

namespace Leads

variable {σ : Type} {peer : Request → σ → Reply × σ} {d rest : Dialogue α} {state mid : σ}
  {talk : List (Request × Reply)}

/-- What is left of a dialogue comes to what the whole comes to. -/
theorem run (h : Leads peer d state talk rest mid) : d.run peer state = rest.run peer mid := by
  induction h with
  | start => rfl
  | reply _ ih => exact ih

/-- The requests of a dialogue are those so far and those of what is left of it. -/
theorem transcript (h : Leads peer d state talk rest mid) :
    d.transcript peer state = talk ++ rest.transcript peer mid := by
  induction h with
  | start => rfl
  | reply _ ih => rw [ih, Dialogue.transcript, List.append_assoc, List.singleton_append]

/-- What is left of a dialogue is all that stands before what follows it. -/
theorem bind (h : Leads peer d state talk rest mid) (f : α → Dialogue β) :
    Leads peer (d.bind f) state talk (rest.bind f) mid := by
  induction h with
  | start => exact .start
  | reply _ ih => exact .reply ih

/-- After a dialogue that is done, what follows it is left. -/
theorem next {a : α} {f : α → Dialogue β} {rest' : Dialogue β}
    (h : Leads peer d state talk (.done a) mid) (hf : f a = rest') :
    Leads peer (d.bind f) state talk rest' mid :=
  hf ▸ h.bind f

/-- What is left of what is left is left. -/
theorem trans {talk' : List (Request × Reply)} {rest' : Dialogue α} {last : σ}
    (h : Leads peer d state talk rest mid) (h' : Leads peer rest mid talk' rest' last) :
    Leads peer d state (talk ++ talk') rest' last := by
  induction h' with
  | start =>
    rw [List.append_nil]
    exact h
  | reply _ ih =>
    rw [← List.append_assoc]
    exact .reply ih

/-- One dialogue after another comes to what the second comes to. -/
theorem andThen {talk' : List (Request × Reply)} {a : α} {f : α → Dialogue β} {rest' : Dialogue β}
    {last : σ} (h : Leads peer d state talk (.done a) mid)
    (h' : Leads peer (f a) mid talk' rest' last) :
    Leads peer (d.bind f) state (talk ++ talk') rest' last :=
  (h.bind f).trans h'

end Leads

/-! ## Contracts -/

/-- A dialogue asks only for what is allowed, and as long as the replies are allowed its result has
a property. -/
inductive Meets (asks : Request → Prop) (gets : Request → Reply → Prop) (P : α → Prop) :
    Dialogue α → Prop where
  | done {a : α} (h : P a) : Meets asks gets P (.done a)
  | ask {request : Request} {next : Reply → Dialogue α} (hasks : asks request)
      (h : ∀ reply, gets request reply → Meets asks gets P (next reply)) :
      Meets asks gets P (.ask request next)

namespace Meets

variable {asks : Request → Prop} {gets : Request → Reply → Prop} {P : α → Prop} {Q : β → Prop}
  {d : Dialogue α}

/-- What follows a dialogue may rely on the property of its result. -/
theorem bind {f : α → Dialogue β} (h : Meets asks gets P d)
    (hf : ∀ a, P a → Meets asks gets Q (f a)) : Meets asks gets Q (d.bind f) := by
  induction h with
  | done h => exact hf _ h
  | ask hasks _ ih => exact .ask hasks ih

/-- A result with a property has every property that follows. -/
theorem imp {Q : α → Prop} (h : Meets asks gets P d) (hpq : ∀ a, P a → Q a) :
    Meets asks gets Q d := by
  rw [← d.bind_done]
  exact h.bind fun a ha ↦ .done (hpq a ha)

/-- A peer with allowed replies gets a result with the property. -/
theorem run {σ : Type} (h : Meets asks gets P d) (peer : Request → σ → Reply × σ)
    (hpeer : ∀ request state, gets request (peer request state).1) (state : σ) :
    P (d.run peer state).1 := by
  induction h generalizing state with
  | done h => exact h
  | ask _ _ ih => exact ih _ (hpeer _ _) _

end Meets
end Sidecar.Dialogue
