import Sidecar.Text.Hexadecimal

/-!
# JSON documents

The documents written here are records whose entries are texts, integers, or lists of those. They
are printed in one line without blanks or with each entry on a line of its own; the two differ only
in what stands between lexemes.
-/

namespace Sidecar.Json

/-- A value without parts. -/
inductive Scalar where
  | text (s : String)
  | integer (n : Int)
  deriving DecidableEq, Repr

/-- The value of an entry. -/
inductive Value where
  | scalar (s : Scalar)
  | list (items : List Scalar)
  deriving DecidableEq, Repr

/-- A record, its entries in order. -/
abbrev Document := List (String × Value)

/-- What is written between lexemes. -/
structure Layout where
  /-- Before an item or a closing bracket at this depth. -/
  line : Nat → List Char
  /-- After the colon of an entry. -/
  space : List Char

/-- Everything in one line. -/
def Layout.compact : Layout := ⟨fun _ ↦ [], []⟩

/-- Each item on a line of its own, two blanks deeper than what it belongs to. -/
def Layout.pretty : Layout := ⟨fun depth ↦ '\n' :: List.replicate (2 * depth) ' ', [' ']⟩

/-- One character inside a text. -/
def printChar (c : Char) : List Char :=
  match c with
  | '"' => ['\\', '"']
  | '\\' => ['\\', '\\']
  | '\x08' => ['\\', 'b']
  | '\x0c' => ['\\', 'f']
  | '\n' => ['\\', 'n']
  | '\r' => ['\\', 'r']
  | '\t' => ['\\', 't']
  | c =>
    if c.toNat < 0x20 then
      ['\\', 'u', '0', '0', Hexadecimal.digit (c.toNat / 16), Hexadecimal.digit (c.toNat % 16)]
    else [c]

/-- A text in quotes. -/
def printText (s : String) : List Char := '"' :: s.toList.flatMap printChar ++ ['"']

/-- An integer. -/
def printInt (n : Int) : List Char :=
  if n < 0 then '-' :: Nat.toDigits 10 n.natAbs else Nat.toDigits 10 n.natAbs

/-- A value without parts. -/
def Scalar.print : Scalar → List Char
  | .text s => printText s
  | .integer n => printInt n

/-- Printed items at a depth, between brackets and with commas. Nothing stands between the brackets
of an empty list. -/
def printItems (layout : Layout) (depth : Nat) (first last : Char) (items : List (List Char)) :
    List Char :=
  if items = [] then [first, last]
  else
    first :: List.intercalate [','] (items.map (layout.line (depth + 1) ++ ·)) ++
      layout.line depth ++ [last]

/-- The value of an entry at a depth. -/
def Value.print (layout : Layout) (depth : Nat) : Value → List Char
  | .scalar s => s.print
  | .list items => printItems layout depth '[' ']' (items.map Scalar.print)

/-- An entry of a record. -/
def printEntry (layout : Layout) (entry : String × Value) : List Char :=
  printText entry.1 ++ ':' :: layout.space ++ entry.2.print layout 1

/-- A document. -/
def Document.print (layout : Layout) (d : Document) : List Char :=
  printItems layout 0 '{' '}' (d.map (printEntry layout))

end Sidecar.Json
