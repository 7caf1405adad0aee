import Sidecar.Json.Number
import Sidecar.Text.Hexadecimal

/-!
# JSON lexemes

A JSON source is read into a list of lexemes. What a lexeme is does not depend on where it stands,
so a source can be read without looking at its structure; where no lexeme can be read the list ends
in `malformed`. A reader that takes lexemes one by one therefore meets the faults of a source in
the order in which they stand in it.
-/

namespace Sidecar.Json

/-- The smallest parts of a JSON source. -/
inductive Lexeme where
  | openList
  | closeList
  | openRecord
  | closeRecord
  | comma
  | colon
  | null
  | bool (b : Bool)
  | number (n : Number)
  | text (s : String)
  /-- Something that is no lexeme, and all that comes after it. -/
  | malformed

/-- Whether a character may stand between lexemes. -/
def isGap (c : Char) : Bool := c = ' ' || c = '\n' || c = '\t' || c = '\r'

/-- The character of one letter after a backslash. -/
def escape? (c : Char) : Option Char :=
  match c with
  | '"' => some '"'
  | '\\' => some '\\'
  | '/' => some '/'
  | 'b' => some '\x08'
  | 'f' => some '\x0c'
  | 'n' => some '\n'
  | 'r' => some '\r'
  | 't' => some '\t'
  | _ => none

/-- Whether a number is the first half of a character beyond U+FFFF. -/
def isHighHalf (n : Nat) : Bool := 0xd800 ≤ n && n < 0xdc00

/-- Whether a number is the second half of a character beyond U+FFFF. -/
def isLowHalf (n : Nat) : Bool := 0xdc00 ≤ n && n < 0xe000

/-- The character of two halves. -/
def joinHalves (high low : Nat) : Char :=
  Char.ofNat (0x10000 + (high - 0xd800) * 0x400 + (low - 0xdc00))

/-- Reads the inside of a text up to its closing quote. -/
def readText (acc : List Char) : List Char → Option (String × List Char)
  | '"' :: cs => some (String.ofList acc.reverse, cs)
  | '\\' :: 'u' :: a :: b :: c :: d :: cs =>
    match Hexadecimal.number? [a, b, c, d] with
    | none => none
    | some n =>
      if isHighHalf n then
        match cs with
        | '\\' :: 'u' :: e :: f :: g :: h :: cs =>
          match Hexadecimal.number? [e, f, g, h] with
          | none => none
          | some m => if isLowHalf m then readText (joinHalves n m :: acc) cs else none
        | _ => none
      else if isLowHalf n then none
      else readText (Char.ofNat n :: acc) cs
  | '\\' :: c :: cs =>
    match escape? c with
    | some e => readText (e :: acc) cs
    | none => none
  | c :: cs => if c = '\\' ∨ c.toNat < 0x20 then none else readText (c :: acc) cs
  | [] => none

/-- The rest of the source after a word, if it begins with it. -/
def afterWord : List Char → List Char → Option (List Char)
  | [], cs => some cs
  | w :: word, c :: cs => if w = c then afterWord word cs else none
  | _ :: _, [] => none

/-- Reads one lexeme, given its first character. -/
def readLexeme (c : Char) (cs : List Char) : Option (Lexeme × List Char) :=
  match c with
  | '[' => some (.openList, cs)
  | ']' => some (.closeList, cs)
  | '{' => some (.openRecord, cs)
  | '}' => some (.closeRecord, cs)
  | ',' => some (.comma, cs)
  | ':' => some (.colon, cs)
  | '"' => (readText [] cs).map fun (s, cs) ↦ (.text s, cs)
  | 'n' => (afterWord ['u', 'l', 'l'] cs).map fun cs ↦ (.null, cs)
  | 't' => (afterWord ['r', 'u', 'e'] cs).map fun cs ↦ (.bool true, cs)
  | 'f' => (afterWord ['a', 'l', 's', 'e'] cs).map fun cs ↦ (.bool false, cs)
  | '-' => (readNumber true cs).map fun (n, cs) ↦ (.number n, cs)
  | c =>
    if isDigit c then (readNumber false (c :: cs)).map fun (n, cs) ↦ (.number n, cs) else none

private theorem readText_length {acc cs rest : List Char} {s : String}
    (h : readText acc cs = some (s, rest)) : rest.length < cs.length := by
  fun_induction readText acc cs <;> simp_all <;> omega

private theorem afterWord_length {word cs rest : List Char}
    (h : afterWord word cs = some rest) : rest.length ≤ cs.length := by
  fun_induction afterWord word cs <;> simp_all
  omega

/-- A lexeme takes at least its first character. -/
theorem readLexeme_length {c : Char} {cs rest : List Char} {l : Lexeme}
    (h : readLexeme c cs = some (l, rest)) : rest.length ≤ cs.length := by
  have word {w cs : List Char} {l' : Lexeme}
      (h : (afterWord w cs).map (fun cs ↦ (l', cs)) = some (l, rest)) :
      rest.length ≤ cs.length := by
    obtain ⟨r, hr, he⟩ := Option.map_eq_some_iff.1 h
    cases he
    exact afterWord_length hr
  unfold readLexeme at h
  split at h
  case h_7 =>
    obtain ⟨r, hr, he⟩ := Option.map_eq_some_iff.1 h
    cases he
    exact Nat.le_of_lt (readText_length hr)
  case h_8 => exact word h
  case h_9 => exact word h
  case h_10 => exact word h
  case h_11 =>
    obtain ⟨r, hr, he⟩ := Option.map_eq_some_iff.1 h
    cases he
    exact Nat.le_of_lt (readNumber_length hr)
  case h_12 =>
    rw [Option.ite_none_right_eq_some] at h
    obtain ⟨r, hr, he⟩ := Option.map_eq_some_iff.1 h.2
    cases he
    exact Nat.le_of_lt_succ (readNumber_length hr)
  all_goals
    cases h
    exact Nat.le_refl _

/-- The lexemes of a source. -/
def lexemes : List Char → List Lexeme
  | [] => []
  | c :: cs =>
    if isGap c then lexemes cs
    else
      match _h : readLexeme c cs with
      | none => [.malformed]
      | some (l, rest) => l :: lexemes rest
termination_by cs => cs.length
decreasing_by
  · simp
  · exact Nat.lt_succ_of_le (readLexeme_length _h)

end Sidecar.Json
