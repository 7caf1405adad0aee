/-!
# Byte strings

Payloads, wires and captured output are lists of bytes. This module names the bytes that framing
gives a meaning to, cuts a byte string into its newline-separated segments and joins them again.
The two directions are inverse: `joinSegments_segments` always, `segments_joinSegments` when no
segment holds a newline.
-/

namespace Sidecar

/-- A byte string, first byte first. -/
abbrev Bytes := List UInt8

namespace Bytes

/-- The line terminator. -/
def newline : UInt8 := 0x0a

/-- The byte that may precede a line terminator. -/
def carriageReturn : UInt8 := 0x0d

/-- The byte between a netstring's length and its payload. -/
def colon : UInt8 := 0x3a

/-- The byte after a netstring's payload. -/
def comma : UInt8 := 0x2c

/-- The UTF-8 bytes of a text. -/
def ofString (s : String) : Bytes := s.toUTF8.data.toList

/-- The byte string without its last byte when that is a carriage return. -/
def dropCarriageReturn (b : Bytes) : Bytes :=
  if b.getLast? = some carriageReturn then b.dropLast else b

/-- The pieces between newlines; there is one more of them than there are newlines. -/
def segments (b : Bytes) : List Bytes := b.splitOn newline

/-- The pieces with one newline between each two. -/
def joinSegments (pieces : List Bytes) : Bytes := List.intercalate [newline] pieces

/-- A byte string has at least one segment. -/
theorem segments_ne_nil (b : Bytes) : segments b ≠ [] :=
  List.splitOn_ne_nil newline b

/-- Joining the segments gives the byte string back. -/
theorem joinSegments_segments (b : Bytes) : joinSegments (segments b) = b :=
  List.intercalate_splitOn newline

/-- Segments without newlines survive being joined and cut again. -/
theorem segments_joinSegments {pieces : List Bytes} (hfree : ∀ p ∈ pieces, newline ∉ p)
    (hne : pieces ≠ []) : segments (joinSegments pieces) = pieces :=
  List.splitOn_intercalate newline hfree hne

/-- A carriage return at the end is dropped, once. -/
theorem dropCarriageReturn_concat (b : Bytes) : dropCarriageReturn (b ++ [carriageReturn]) = b := by
  simp [dropCarriageReturn]

/-- A byte string that does not end in a carriage return is kept whole. -/
theorem dropCarriageReturn_of_ne {b : Bytes} (h : b.getLast? ≠ some carriageReturn) :
    dropCarriageReturn b = b := by
  simp [dropCarriageReturn, h]

end Bytes
end Sidecar
