import Sidecar.Text.Shapeless

/-!
# Quoted text

Text inside a message stands between double quotes. A quote or backslash in it gets a backslash,
tab, line feed, carriage return and NUL have letters of their own, and a character without a shape
is shown by its number in hexadecimal.
-/

namespace Sidecar.Text

/-- One character between quotes. -/
def quotedChar (c : Char) : List Char :=
  match c with
  | '\x00' => ['\\', '0']
  | '\t' => ['\\', 't']
  | '\n' => ['\\', 'n']
  | '\r' => ['\\', 'r']
  | '"' => ['\\', '"']
  | '\\' => ['\\', '\\']
  | c => if isShapeless c then '\\' :: 'u' :: '{' :: Nat.toDigits 16 c.toNat ++ ['}'] else [c]

/-- A text between quotes. -/
def quoted (s : String) : String := String.ofList ('"' :: s.toList.flatMap quotedChar ++ ['"'])

end Sidecar.Text
