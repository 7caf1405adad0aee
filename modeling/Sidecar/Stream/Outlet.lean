import Sidecar.Stream.Tokenizer

/-!
# Outlets

An outlet is one output stream of a child together with the tokens that were cut from it and that
nobody has taken yet. It decodes as bytes arrive. Once the stream ends, or cannot be decoded, no
token is added any more: first the outlet is stopped, then it is disconnected, which those who wait
for a token notice, and last it reports that it is done.
-/

namespace Sidecar

/-- How far an outlet has come. -/
inductive Outlet.Phase where
  /-- Bytes are decoded as they arrive. -/
  | decoding
  /-- No token is added any more. -/
  | stopped
  /-- Those who wait for a token know that none will come. -/
  | disconnected
  /-- The end of the stream has been reported. -/
  | reported
  deriving DecidableEq, Repr

/-- One output stream and its unread tokens. -/
structure Outlet where
  reader : Tokenizer
  /-- The tokens that nobody has taken, oldest first. -/
  queue : List Bytes
  phase : Outlet.Phase
  deriving DecidableEq, Repr

namespace Outlet

/-- An outlet of a stream from which nothing has come. -/
def fresh (codec : Codec) (maxBuffer : Nat) : Outlet :=
  ⟨Tokenizer.fresh codec maxBuffer, [], .decoding⟩

/-- Whether no token will be added, and those who wait know it. -/
def isDisconnected (o : Outlet) : Bool := o.phase = .disconnected || o.phase = .reported

/-- Hands out what the reader has until it wants bytes or ends; the number bounds the items. -/
def pour : Nat → Outlet → Outlet
  | 0, o => o
  | fuel + 1, o =>
    match o.reader.poll with
    | (.item (.ok token), reader) => pour fuel { o with reader, queue := o.queue ++ [token] }
    | (.item (.error _), reader) => { o with reader, phase := .stopped }
    | (.ended, reader) => { o with reader, phase := .stopped }
    | (.wants _, reader) => { o with reader }

/-- The number of items that the bytes at hand can make: each token takes a byte, and a failure or
the end comes last. -/
def room (o : Outlet) : Nat := o.reader.unread.length + 2

/-- Takes bytes in; each read takes as many as the reader offers room for. -/
def feed (o : Outlet) (bytes : Bytes) : Outlet :=
  let o := o.pour o.room
  if o.phase ≠ .decoding then o
  else
    match bytes with
    | [] => o
    | b :: rest =>
      match o.reader.poll with
      | (.wants offered, reader) =>
        let n := max offered 1
        let o : Outlet := { o with reader := reader.receive ((b :: rest).take n) }
        feed (o.pour o.room) ((b :: rest).drop n)
      | _ => o
termination_by bytes.length
decreasing_by
  simp only [List.length_drop, List.length_cons]
  omega

/-- Takes in that the stream has ended. -/
def close (o : Outlet) : Outlet :=
  if o.phase ≠ .decoding then o
  else
    let o := { o with reader := o.reader.receive [] }
    { o.pour o.room with phase := .stopped }

/-- The oldest token and the outlet without it. -/
def take? (o : Outlet) : Option (Bytes × Outlet) :=
  match o.queue with
  | [] => none
  | token :: queue => some (token, { o with queue })

end Outlet
end Sidecar
