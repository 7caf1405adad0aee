import Sidecar.Bytes

/-!
# Reading UTF-8

One decoder reads bytes left to right. Where no character can continue, the bytes of the unfinished
character are replaced by one U+FFFD and the refusing byte is read afresh, so the longest possible
starts of characters are replaced one at a time. `decode?` accepts a byte string in which nothing
was replaced; `decodeLossy` always answers.
-/

namespace Sidecar.Utf8

/-- A character whose first bytes have been read. -/
structure Unfinished where
  /-- The bits read so far. -/
  value : Nat
  /-- Continuation bytes still owed, at least one. -/
  owed : Nat
  /-- The least byte that may come next. -/
  low : UInt8
  /-- The greatest byte that may come next. -/
  high : UInt8

/-- What a byte between two characters begins. -/
inductive Lead where
  /-- A character of one byte. -/
  | whole (c : Char)
  /-- A character of several bytes. -/
  | opens (u : Unfinished)
  /-- No character. -/
  | refused

/-- The first byte decides how many follow; the ranges leave out overlong forms, surrogates and
values above U+10FFFF. -/
def lead (b : UInt8) : Lead :=
  if b < 0x80 then .whole (Char.ofNat b.toNat)
  else if b < 0xc2 then .refused
  else if b < 0xe0 then .opens ⟨b.toNat - 0xc0, 1, 0x80, 0xbf⟩
  else if b = 0xe0 then .opens ⟨0, 2, 0xa0, 0xbf⟩
  else if b = 0xed then .opens ⟨0xd, 2, 0x80, 0x9f⟩
  else if b < 0xf0 then .opens ⟨b.toNat - 0xe0, 2, 0x80, 0xbf⟩
  else if b = 0xf0 then .opens ⟨0, 3, 0x90, 0xbf⟩
  else if b < 0xf4 then .opens ⟨b.toNat - 0xf0, 3, 0x80, 0xbf⟩
  else if b = 0xf4 then .opens ⟨4, 3, 0x80, 0x8f⟩
  else .refused

/-- A decoder between two bytes. -/
structure Decoder where
  /-- Characters read, latest first. -/
  chars : List Char
  /-- The character being read, if any. -/
  current : Option Unfinished
  /-- Whether nothing has been replaced yet. -/
  clean : Bool

namespace Decoder

/-- The decoder before the first byte. -/
def start : Decoder := ⟨[], none, true⟩

/-- Puts down the replacement character for what could not be read. -/
def replace (d : Decoder) : Decoder := ⟨'\uFFFD' :: d.chars, none, false⟩

/-- Reads a byte between two characters. -/
def readLead (d : Decoder) (b : UInt8) : Decoder :=
  match lead b with
  | .whole c => { d with chars := c :: d.chars, current := none }
  | .opens u => { d with current := some u }
  | .refused => d.replace

/-- Reads one byte. -/
def read (d : Decoder) (b : UInt8) : Decoder :=
  match d.current with
  | none => d.readLead b
  | some u =>
    if u.low ≤ b ∧ b ≤ u.high then
      let value := u.value * 64 + (b.toNat - 0x80)
      if u.owed = 1 then { d with chars := Char.ofNat value :: d.chars, current := none }
      else { d with current := some ⟨value, u.owed - 1, 0x80, 0xbf⟩ }
    else d.replace.readLead b

/-- Ends the input: an unfinished character is replaced. -/
def finish (d : Decoder) : Decoder :=
  if d.current.isSome then d.replace else d

end Decoder

/-- The decoder after all of a byte string. -/
def run (b : Bytes) : Decoder := (b.foldl Decoder.read Decoder.start).finish

/-- The text with these UTF-8 bytes, if they are UTF-8. -/
def decode? (b : Bytes) : Option String :=
  let d := run b
  if d.clean then some (String.ofList d.chars.reverse) else none

/-- The text with these bytes, each unreadable stretch replaced by U+FFFD. -/
def decodeLossy (b : Bytes) : String := String.ofList (run b).chars.reverse

end Sidecar.Utf8
