import Sidecar.Text.Decimal

/-!
# Arguments of a command line

Arguments are read from left to right. An option has a long name after two dashes, and may have a
letter after one dash; letters may stand together. The value of an option is the next argument, or
stands in the same one, after an equals sign or right after the letter. After a lone double dash
all arguments are taken as they are.
-/

namespace Sidecar.CommandLine

/-- An option. -/
structure Switch where
  name : String
  letter : Option Char := none
  takesValue : Bool := false
  /-- Whether its value may be a number below zero as an argument of its own. -/
  takesNegative : Bool := false
  deriving DecidableEq, Repr

/-- What an argument turned out to be. -/
inductive Item where
  | flag (name : String)
  | option (name value : String)
  | positional (text : String)
  /-- What follows a lone double dash. -/
  | rest (arguments : List String)
  /-- It is nothing that could stand there; no more is read. -/
  | unexpected
  deriving DecidableEq, Repr

/-- Whether a text is a number as options take them: digits, with at most one point that does not
come first, and at most one exponent that is not empty. -/
def isNumber (cs : List Char) : Bool :=
  let isFraction (cs : List Char) : Bool :=
    match cs.dropWhile Char.isDigit with
    | [] => true
    | '.' :: rest => cs.head? ≠ some '.' && rest.all Char.isDigit
    | _ => false
  match cs.dropWhile (· ≠ 'e') with
  | [] => cs ≠ [] && isFraction cs
  | _ :: exponent =>
    let mantissa := cs.takeWhile (· ≠ 'e')
    mantissa ≠ [] && isFraction mantissa && exponent ≠ [] && exponent.all Char.isDigit

/-- Whether an argument can be the value of an option. -/
def Switch.admits (o : Switch) (argument : String) : Bool :=
  match argument.toList with
  | '-' :: rest => rest.isEmpty || (o.takesNegative && isNumber rest)
  | _ => true

/-- Reads letters that stand together, given the arguments that follow: the items, and the arguments
that are left unless something unexpected was met. -/
def readLetters (switches : List Switch) :
    List Char → List String → List Item × Option (List String)
  | [], arguments => ([], some arguments)
  | c :: cs, arguments =>
    match switches.find? (·.letter = some c) with
    | none => ([.unexpected], none)
    | some o =>
      if o.takesValue then
        match cs, arguments with
        | '=' :: value, _ => ([.option o.name (String.ofList value)], some arguments)
        | [], value :: arguments =>
          if o.admits value then ([.option o.name value], some arguments) else ([.unexpected], none)
        | [], [] => ([.unexpected], none)
        | value, _ => ([.option o.name (String.ofList value)], some arguments)
      else
        let (items, left) := readLetters switches cs arguments
        (.flag o.name :: items, left)

/-- Reads an argument with two dashes before it, which are dropped. -/
def readName (switches : List Switch) (argument : List Char) (arguments : List String) :
    Item × Option (List String) :=
  let name := String.ofList (argument.takeWhile (· ≠ '='))
  match switches.find? (·.name = name), argument.dropWhile (· ≠ '='), arguments with
  | none, _, _ => (.unexpected, none)
  | some o, _ :: value, _ =>
    if o.takesValue then (.option name (String.ofList value), some arguments)
    else (.unexpected, none)
  | some o, [], [] => if o.takesValue then (.unexpected, none) else (.flag name, some [])
  | some o, [], value :: rest =>
    if o.takesValue then
      if o.admits value then (.option name value, some rest) else (.unexpected, none)
    else (.flag name, some arguments)

/-- The items of arguments; each step uses up an argument, and the number bounds the steps. -/
def readItems (switches : List Switch) : Nat → List String → List Item
  | 0, _ => []
  | _, [] => []
  | fuel + 1, argument :: arguments =>
    match argument.toList with
    | '-' :: '-' :: [] => [.rest arguments]
    | '-' :: '-' :: name =>
      match readName switches name arguments with
      | (item, some left) => item :: readItems switches fuel left
      | (item, none) => [item]
    | '-' :: c :: cs =>
      match readLetters switches (c :: cs) arguments with
      | (items, some left) => items ++ readItems switches fuel left
      | (items, none) => items
    | _ => .positional argument :: readItems switches fuel arguments

/-- The items of arguments. -/
def items (switches : List Switch) (arguments : List String) : List Item :=
  readItems switches arguments.length arguments

/-- A number without a sign, or with a plus. -/
def natural? (text : String) : Option Nat :=
  let digits := match text.toList with
    | '+' :: ds => ds
    | ds => ds
  if digits ≠ [] ∧ digits.all Char.isDigit then
    some (Decimal.value (Bytes.ofString (String.ofList digits)))
  else none

/-- A number of a 64-bit word. -/
def word? (text : String) : Option UInt64 :=
  (natural? text).bind fun n ↦ if n < UInt64.size then some (UInt64.ofNat n) else none

/-- A signed number of a 64-bit word. -/
def signedWord? (text : String) : Option Int64 :=
  let n? : Option Int := match text.toList with
    | '-' :: '+' :: _ => none
    | '-' :: ds => (natural? (String.ofList ds)).map fun n ↦ -n
    | _ => (natural? text).map fun n ↦ n
  n?.bind fun n ↦
    if Int64.minValue.toInt ≤ n ∧ n ≤ Int64.maxValue.toInt then some (Int64.ofInt n) else none

end Sidecar.CommandLine
