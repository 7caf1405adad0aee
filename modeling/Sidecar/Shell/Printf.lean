import Sidecar.Shell.Arithmetic

/-!
# Formatted output

`Printf.format` writes arguments as a format says, and starts the format anew for as long as there
are arguments. What is wrong with an argument is collected as messages; what is wrong with the
format ends the output.
-/

namespace Sidecar.Shell

/-- The byte of one letter after a backslash. -/
def escapeLetter? (c : Char) : Option Char :=
  match c with
  | 'a' => some '\x07'
  | 'b' => some '\x08'
  | 'f' => some '\x0c'
  | 'n' => some '\n'
  | 'r' => some '\r'
  | 't' => some '\t'
  | 'v' => some '\x0b'
  | '\\' => some '\\'
  | _ => none

/-- Whether a character is an octal digit. -/
def isOctal (c : Char) : Bool := '0' ≤ c && c ≤ '7'

/-- The byte of some octal digits. -/
def octalByte (ds : Text) : Char :=
  Char.ofNat (ds.foldl (fun n d ↦ 8 * n + (d.toNat - 48)) 0 % 256)

/-- What follows a backslash: the byte that it denotes and the text after it. A backslash before
anything else stands for itself. -/
def unescape (cs : Text) : Char × Text :=
  match cs with
  | c :: rest =>
    if isOctal c then
      let ds := (cs.take 3).takeWhile isOctal
      (octalByte ds, cs.drop ds.length)
    else
      match escapeLetter? c with
      | some e => (e, rest)
      | none => ('\\', cs)
  | [] => ('\\', [])

/-- Expands the escapes of an argument, and whether one of them ends all output. -/
def expandEscapes : Nat → Text → Text × Bool
  | 0, _ => ([], false)
  | _, [] => ([], false)
  | _ + 1, '\\' :: 'c' :: _ => ([], true)
  | fuel + 1, '\\' :: '0' :: cs =>
    let ds := (cs.take 3).takeWhile isOctal
    let (s, ends) := expandEscapes fuel (cs.drop ds.length)
    (octalByte ds :: s, ends)
  | fuel + 1, '\\' :: cs =>
    let (c, rest) := unescape cs
    let (s, ends) := expandEscapes fuel rest
    (c :: s, ends)
  | fuel + 1, c :: cs =>
    let (s, ends) := expandEscapes fuel cs
    (c :: s, ends)

/-- Where and how a converted value is put. -/
structure Printf.Layout where
  isLeft : Bool
  isZeroed : Bool
  showsPlus : Bool
  showsSpace : Bool
  isAlternate : Bool
  width : Nat
  precision : Option Nat

namespace Printf

/-- What has been written, what was wrong, and the arguments left over. -/
structure State where
  /-- The bytes written, latest first. -/
  output : Text
  messages : List String
  arguments : List Text
  /-- Whether no more is written. -/
  ended : Bool
  /-- Whether the format was at fault. -/
  failed : Bool

/-- Pads a text to a width. -/
def pad (l : Layout) (s : Text) : Text :=
  let blanks := List.replicate (l.width - s.length) ' '
  if l.isLeft then s ++ blanks else blanks ++ s

/-- A number with its sign apart, padded to a width and a least number of digits. -/
def padNumber (l : Layout) (sign digits : Text) : Text :=
  let digits := match l.precision with
    | some p => List.replicate (p - digits.length) '0' ++ digits
    | none => digits
  if l.isZeroed ∧ !l.isLeft ∧ l.precision.isNone then
    sign ++ List.replicate (l.width - sign.length - digits.length) '0' ++ digits
  else pad l (sign ++ digits)

/-- Writes bytes. -/
def State.put (st : State) (s : Text) : State := { st with output := s.reverse ++ st.output }

/-- Takes the next argument, which is empty if there is none. -/
def State.next (st : State) : Text × State :=
  match st.arguments with
  | a :: rest => (a, { st with arguments := rest })
  | [] => ([], st)

/-- The number that an argument denotes, and what is wrong with it. -/
def numberOf (a : Text) : Int × List String :=
  let shown := String.ofList a
  match a with
  | [] => (0, [])
  | '"' :: c :: _ => (c.toNat, [])
  | '\'' :: c :: _ => (c.toNat, [])
  | a =>
    let (negative, ds) := match a.dropWhile (· = ' ') with
      | '-' :: ds => (true, ds)
      | '+' :: ds => (false, ds)
      | ds => (false, ds)
    let isHex := match ds with
      | '0' :: x :: d :: _ => (x = 'x' || x = 'X') && (d.isDigit || digitOf d < 16 && d.isAlphanum)
      | _ => false
    let body :=
      if isHex then ds.take 2 ++ (ds.drop 2).takeWhile fun d ↦ d.isAlphanum && digitOf d < 16
      else
        match ds with
        | '0' :: _ => ds.takeWhile isOctal
        | ds => ds.takeWhile Char.isDigit
    match parseNumber? body with
    | none => (0, [shown ++ ": expected numeric value"])
    | some n =>
      (if negative then -n else n,
        if body.length = ds.length then [] else [shown ++ ": not completely converted"])

/-- Takes the next argument as a number. -/
def State.nextNumber (st : State) : Int × State :=
  let (a, st) := st.next
  let (n, messages) := numberOf a
  (n, { st with messages := st.messages ++ messages })

/-- Reads the flags of a conversion. -/
def readFlags (l : Layout) : Text → Layout × Text
  | '-' :: cs => readFlags { l with isLeft := true } cs
  | '0' :: cs => readFlags { l with isZeroed := true } cs
  | '+' :: cs => readFlags { l with showsPlus := true } cs
  | ' ' :: cs => readFlags { l with showsSpace := true } cs
  | '#' :: cs => readFlags { l with isAlternate := true } cs
  | cs => (l, cs)

/-- Reads a number of a conversion, or takes it from the arguments. -/
def readSize (st : State) : Text → Int × State × Text
  | '*' :: cs =>
    let (n, st) := st.nextNumber
    (n, st, cs)
  | cs =>
    let ds := cs.takeWhile Char.isDigit
    ((ds.foldl (fun n d ↦ 10 * n + digitOf d) 0 : Nat), st, cs.dropWhile Char.isDigit)

/-- The digits of a number in a base, in capitals or not. -/
def inBase (base : Nat) (capitals : Bool) (n : Nat) : Text :=
  (Nat.toDigits base n).map fun c ↦ if capitals then c.toUpper else c

/-- Writes one argument as a conversion says. -/
def convert (st : State) (l : Layout) (conversion : Char) (shown : Text) : State :=
  let cut (s : Text) : Text := match l.precision with
    | some p => s.take p
    | none => s
  match conversion with
  | 's' => let (a, st) := st.next; st.put (pad l (cut a))
  | 'b' =>
    let (a, st) := st.next
    let (s, ended) := expandEscapes a.length a
    { st.put (pad l (cut s)) with ended }
  | 'c' =>
    let (a, st) := st.next
    st.put (pad l (match a with
      | c :: _ => [c]
      | [] => ['\x00']))
  | c =>
    let unsigned (base : Nat) (capitals : Bool) (mark : Text) : State :=
      let (n, st) := st.nextNumber
      st.put (padNumber l (if l.isAlternate ∧ n ≠ 0 then mark else [])
        (inBase base capitals (UInt64.ofInt n).toNat))
    if c = 'd' ∨ c = 'i' then
      let (n, st) := st.nextNumber
      let sign : Text := if n < 0 then ['-'] else if l.showsPlus then ['+']
        else if l.showsSpace then [' '] else []
      st.put (padNumber l sign (Nat.toDigits 10 n.natAbs))
    else if c = 'u' then unsigned 10 false []
    else if c = 'o' then unsigned 8 false ['0']
    else if c = 'x' then unsigned 16 false ['0', 'x']
    else if c = 'X' then unsigned 16 true ['0', 'X']
    else
      { st with
        messages := st.messages ++ [String.ofList shown ++ ": invalid directive"]
        ended := true
        failed := true }

/-- Writes what a format says once. The first argument bounds the steps. -/
def pass : Nat → State → Text → State
  | 0, st, _ => st
  | _, st, [] => st
  | fuel + 1, st, c :: cs =>
    if st.ended then st
    else if c = '\\' then
      let (e, rest) := unescape cs
      pass fuel (st.put [e]) rest
    else if c ≠ '%' then pass fuel (st.put [c]) cs
    else
      match cs with
      | '%' :: rest => pass fuel (st.put ['%']) rest
      | _ =>
        let (l, rest) := readFlags ⟨false, false, false, false, false, 0, none⟩ cs
        let (width, st, rest) := readSize st rest
        let l := { l with width := width.natAbs, isLeft := l.isLeft || width < 0 }
        let (l, st, rest) := match rest with
          | '.' :: rest =>
            let (p, st, rest) := readSize st rest
            ({ l with precision := if p < 0 then none else some p.natAbs }, st, rest)
          | rest => (l, st, rest)
        match rest with
        | [] =>
          { st with
            messages := st.messages ++ ["missing format character"]
            ended := true
            failed := true }
        | conversion :: rest =>
          let shown := (c :: cs).take (cs.length + 1 - rest.length)
          pass fuel (convert st l conversion shown) rest

/-- Writes what a format says for as long as it takes arguments. The number bounds the passes. -/
def passes (format : Text) : Nat → State → State
  | 0, st => st
  | fuel + 1, st =>
    let before := st.arguments.length
    let st := pass (format.length + 1) st format
    if st.ended ∨ st.arguments = [] ∨ st.arguments.length = before then st
    else passes format fuel st

/-- The output of a format with arguments, the messages, and the status. -/
def format (fmt : Text) (arguments : List Text) : Text × List String × Nat :=
  let st := passes fmt (arguments.length + 1) ⟨[], [], arguments, false, false⟩
  (st.output.reverse, st.messages, if st.failed then 2 else if st.messages = [] then 0 else 1)

end Printf

/-- The output of an echo: its arguments with blanks between them and escapes expanded. -/
def echo (arguments : List Text) : Text :=
  let (newline, arguments) := match arguments with
    | ['-', 'n'] :: rest => (false, rest)
    | rest => (true, rest)
  let joined := List.intercalate [' '] arguments
  let (s, ended) := expandEscapes joined.length joined
  if newline ∧ !ended then s ++ ['\n'] else s

end Sidecar.Shell
