import Sidecar.Failure

/-!
# Dialogues

A dialogue is a computation that asks a peer for answers, one after the other. It says nothing of
the peer: `run` plays it against one with a state of its own.
-/

namespace Sidecar

/-- A request: a payload with bytes before and after it. -/
structure Request where
  envelope : Codec.Envelope
  payload : Bytes
  deriving DecidableEq, Repr

namespace Request

/-- The bytes of a request. -/
def frame (r : Request) : Bytes := r.envelope.wrap r.payload

end Request

/-- What a request comes to. -/
abbrev Reply := Except Failure Bytes

/-- A computation that asks a peer. -/
inductive Dialogue (α : Type) where
  | done (a : α)
  | ask (request : Request) (next : Reply → Dialogue α)

namespace Dialogue

variable {α β : Type}

/-- One dialogue after another. -/
def bind (d : Dialogue α) (f : α → Dialogue β) : Dialogue β :=
  match d with
  | .done a => f a
  | .ask request next => .ask request fun reply ↦ (next reply).bind f

instance : Monad Dialogue where
  pure := .done
  bind := Dialogue.bind

/-- One request. -/
def request (r : Request) : Dialogue Reply := .ask r .done

/-- Plays a dialogue against a peer that answers each request and changes its state. -/
def run {σ : Type} (peer : Request → σ → Reply × σ) (d : Dialogue α) (state : σ) : α × σ :=
  match d with
  | .done a => (a, state)
  | .ask request next =>
    let (reply, state) := peer request state
    (next reply).run peer state

/-- The requests of a dialogue with the replies it got from a peer. -/
def transcript {σ : Type} (peer : Request → σ → Reply × σ) (d : Dialogue α) (state : σ) :
    List (Request × Reply) :=
  match d with
  | .done _ => []
  | .ask request next =>
    let (reply, state) := peer request state
    (request, reply) :: (next reply).transcript peer state

/-- Playing two dialogues in a row plays them one after the other. -/
theorem run_bind {σ : Type} (peer : Request → σ → Reply × σ) (d : Dialogue α)
    (f : α → Dialogue β) (state : σ) :
    (d.bind f).run peer state = (f (d.run peer state).1).run peer (d.run peer state).2 := by
  induction d generalizing state with
  | done a => rfl
  | ask request next ih => exact ih _ _

end Dialogue
end Sidecar
