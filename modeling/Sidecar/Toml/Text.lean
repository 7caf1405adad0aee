import Sidecar.Text.Hexadecimal

/-!
# TOML texts and keys

A text stands between double quotes, where a backslash begins an escape, or between single quotes,
where it does not; three quotes of either kind open a text of several lines. A key is a bare word
or a text of one line, and keys with dots between them are a path.
-/

namespace Sidecar.Toml

/-- Whether a character is a blank. -/
def isBlank (c : Char) : Bool := c = ' ' || c = '\t'

/-- Whether a character may stand in a comment or, quotes and backslashes apart, in a text. -/
def isPlain (c : Char) : Bool := c = '\t' || (0x20 ≤ c.toNat && c.toNat ≠ 0x7f)

/-- The text after blanks. -/
def skipBlanks (cs : List Char) : List Char := cs.dropWhile isBlank

/-- The character of one letter after a backslash. -/
def escape? (c : Char) : Option Char :=
  match c with
  | 'b' => some '\x08'
  | 't' => some '\t'
  | 'n' => some '\n'
  | 'f' => some '\x0c'
  | 'r' => some '\r'
  | '"' => some '"'
  | '\\' => some '\\'
  | _ => none

/-- Reads what follows a backslash. -/
def readEscape : List Char → Option (Char × List Char)
  | 'u' :: a :: b :: c :: d :: cs => do
    some (← Hexadecimal.char? (← Hexadecimal.number? [a, b, c, d]), cs)
  | 'U' :: a :: b :: c :: d :: e :: f :: g :: h :: cs => do
    some (← Hexadecimal.char? (← Hexadecimal.number? [a, b, c, d, e, f, g, h]), cs)
  | c :: cs => (escape? c).map fun e ↦ (e, cs)
  | [] => none

/-- Reads a text up to its closing double quote, given the characters read so far in reverse. The
first argument bounds the number of steps. -/
def readBasic : Nat → List Char → List Char → Option (String × List Char)
  | _, acc, '"' :: cs => some (String.ofList acc.reverse, cs)
  | fuel + 1, acc, '\\' :: cs => do
    let (c, cs) ← readEscape cs
    readBasic fuel (c :: acc) cs
  | fuel + 1, acc, c :: cs => if isPlain c then readBasic fuel (c :: acc) cs else none
  | _, _, _ => none

/-- Reads a text up to its closing single quote. -/
def readLiteral (acc : List Char) : List Char → Option (String × List Char)
  | '\'' :: cs => some (String.ofList acc.reverse, cs)
  | c :: cs => if isPlain c then readLiteral (c :: acc) cs else none
  | [] => none

/-- The text after a line break. -/
def afterNewline? : List Char → Option (List Char)
  | '\n' :: cs => some cs
  | '\r' :: '\n' :: cs => some cs
  | _ => none

/-- The text after blanks and line breaks. -/
def skipLines : List Char → List Char
  | '\n' :: cs => skipLines cs
  | '\r' :: '\n' :: cs => skipLines cs
  | c :: cs => if isBlank c then skipLines cs else c :: cs
  | [] => []

/-- The text after the rest of a line that ends in a backslash, and after all blanks and line breaks
that follow it. -/
def afterContinuation? (cs : List Char) : Option (List Char) :=
  (afterNewline? (skipBlanks cs)).map skipLines

/-- The end of a text of several lines: three quotes, before which up to two more belong to the
text. -/
def closing? (quote : Char) : List Char → Option (List Char × List Char)
  | a :: b :: c :: cs =>
    if a = quote ∧ b = quote ∧ c = quote then
      match cs with
      | d :: e :: rest =>
        if d = quote ∧ e = quote then some ([quote, quote], rest)
        else if d = quote then some ([quote], e :: rest)
        else some ([], cs)
      | [d] => if d = quote then some ([quote], []) else some ([], cs)
      | [] => some ([], [])
    else none
  | _ => none

/-- Reads a text of several lines up to its closing quotes. -/
def readLines (quote : Char) : Nat → List Char → List Char → Option (String × List Char)
  | 0, _, _ => none
  | fuel + 1, acc, cs =>
    match closing? quote cs with
    | some (quotes, rest) => some (String.ofList (acc.reverse ++ quotes), rest)
    | none =>
      match cs with
      | [] => none
      | c :: cs =>
        if c = '\\' ∧ quote = '"' then
          match afterContinuation? cs with
          | some cs => readLines quote fuel acc cs
          | none => do
            let (c, cs) ← readEscape cs
            readLines quote fuel (c :: acc) cs
        else if isPlain c then readLines quote fuel (c :: acc) cs
        else do
          let cs ← afterNewline? (c :: cs)
          readLines quote fuel ('\n' :: acc) cs

/-- Reads a text of several lines after its opening quotes; a line break right there is dropped. -/
def readBlock (quote : Char) (cs : List Char) : Option (String × List Char) :=
  let cs := (afterNewline? cs).getD cs
  readLines quote (cs.length + 1) [] cs

/-- Reads a text of one line. -/
def readLine : List Char → Option (String × List Char)
  | '"' :: cs => readBasic (cs.length + 1) [] cs
  | '\'' :: cs => readLiteral [] cs
  | _ => none

/-- Reads a text. -/
def readText : List Char → Option (String × List Char)
  | '"' :: '"' :: '"' :: cs => readBlock '"' cs
  | '\'' :: '\'' :: '\'' :: cs => readBlock '\'' cs
  | cs => readLine cs

/-- Whether a character may stand in a bare key. -/
def isBare (c : Char) : Bool := c.isAlphanum || c = '-' || c = '_'

/-- Reads a key. -/
def readKey (cs : List Char) : Option (String × List Char) :=
  let word := cs.takeWhile isBare
  if word = [] then readLine cs else some (String.ofList word, cs.dropWhile isBare)

/-- Reads a path of at most so many keys, and the blanks after it. -/
def readPath : Nat → List Char → Option (List String × List Char)
  | 0, _ => none
  | count + 1, cs => do
    let (key, cs) ← readKey (skipBlanks cs)
    match skipBlanks cs with
    | '.' :: cs => (readPath count cs).map fun (path, cs) ↦ (key :: path, cs)
    | cs => some ([key], cs)

end Sidecar.Toml
