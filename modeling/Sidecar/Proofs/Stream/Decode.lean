import Sidecar.Proofs.Codec.Prefix
import Sidecar.Stream.Tokenizer

/-!
# Decoding a whole stream

`Codec.decode` says what a stream of bytes means to a reader whose buffer is limited. It looks at
the whole stream at once and knows nothing of reads: as long as the first bytes, as many as the
buffer holds, begin with a token, the token is an item and its frame is dropped. `Codec.conclude`
says how the list ends when no token is left.

The statements about `u ++ stream` say what can be told from the bytes `u` alone, whatever comes
after them.
-/

namespace Sidecar.Codec

open Tokenizer (Item)

/-- How the items end when more bytes are needed: a full buffer cannot take any, a stream that
fails has none, and at the end of a stream something may be left over. -/
def conclude (codec : Codec) (limit : Nat) (ending : Option IoFault) (rest : Bytes) : List Item :=
  if limit ≤ rest.length then [.error (.framing (.tokenTooLong limit))]
  else
    match ending with
    | some fault => [.error (.io fault)]
    | none =>
      match codec.split rest true with
      | .ok (some (_, token)) => [.ok token]
      | _ => []

/-- The items of a stream that consists of these bytes and then ends, or fails. -/
def decode (codec : Codec) (limit : Nat) (ending : Option IoFault) (rest : Bytes) : List Item :=
  match _h : codec.split (rest.take limit) false with
  | .error fault => [.error (.framing fault)]
  | .ok (some (n, token)) => .ok token :: codec.decode limit ending (rest.drop n)
  | .ok none => codec.conclude limit ending rest
termination_by rest.length
decreasing_by
  have hn := split_consumes _h
  rw [List.length_take] at hn
  rw [List.length_drop]
  omega

variable {codec : Codec} {limit : Nat} {ending : Option IoFault}

/-- A fault ends the items. -/
theorem decode_of_fault {rest : Bytes} {fault : Fault}
    (h : codec.split (rest.take limit) false = .error fault) :
    codec.decode limit ending rest = [.error (.framing fault)] := by
  rw [decode]
  split <;> simp_all

/-- A token is an item, and its frame is dropped. -/
theorem decode_of_token {rest token : Bytes} {n : Nat}
    (h : codec.split (rest.take limit) false = .ok (some (n, token))) :
    codec.decode limit ending rest = .ok token :: codec.decode limit ending (rest.drop n) := by
  rw [decode]
  split <;> simp_all

/-- Where more bytes are needed the items come to their end. -/
theorem decode_of_more {rest : Bytes} (h : codec.split (rest.take limit) false = .ok none) :
    codec.decode limit ending rest = codec.conclude limit ending rest := by
  rw [decode]
  split <;> simp_all

/-- A buffer looks at its first bytes and at some of those that come. -/
theorem take_append_within {u : Bytes} (h : u.length ≤ limit) (stream : Bytes) :
    (u ++ stream).take limit = u ++ stream.take (limit - u.length) := by
  rw [List.take_append, List.take_of_length_le h]

/-- A fault in the first bytes ends the items. -/
theorem decode_append_of_fault {u : Bytes} {fault : Fault} (hu : u.length ≤ limit)
    (h : codec.split u false = .error fault) (stream : Bytes) :
    codec.decode limit ending (u ++ stream) = [.error (.framing fault)] := by
  apply decode_of_fault
  rw [take_append_within hu, split_append (by rw [h]; simp), h]

/-- A token of the first bytes is the first item. -/
theorem decode_append_of_token {u token : Bytes} {n : Nat} (hu : u.length ≤ limit)
    (h : codec.split u false = .ok (some (n, token))) (stream : Bytes) :
    codec.decode limit ending (u ++ stream) =
      .ok token :: codec.decode limit ending (u.drop n ++ stream) := by
  rw [← List.drop_append_of_le_length (split_consumes h).2]
  apply decode_of_token
  rw [take_append_within hu, split_append (by rw [h]; simp), h]

/-- First bytes that fill the buffer without a token in them are too long. -/
theorem decode_append_of_full {u : Bytes} (hu : u.length = limit)
    (h : codec.split u false = .ok none) (stream : Bytes) :
    codec.decode limit ending (u ++ stream) = [.error (.framing (.tokenTooLong limit))] := by
  have htake : (u ++ stream).take limit = u := by rw [← hu, List.take_left]
  rw [decode_of_more (by rw [htake, h])]
  unfold conclude
  exact if_pos (by rw [List.length_append]; omega)

/-- First bytes that leave room for more, when none come. -/
theorem decode_of_room {u : Bytes} (hu : u.length < limit) (h : codec.split u false = .ok none) :
    codec.decode limit ending u = codec.conclude limit ending u :=
  decode_of_more (by rw [List.take_of_length_le (Nat.le_of_lt hu), h])

end Sidecar.Codec
