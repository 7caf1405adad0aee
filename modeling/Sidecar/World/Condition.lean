import Sidecar.World.Kernel

/-!
# Conditions

The expressions of the test command, over its arguments: comparisons of texts and numbers,
questions about files, and their combinations.
-/

namespace Sidecar.World

open Shell (Text)

namespace Condition

/-- Comparisons of texts. -/
def textComparison? (o : Text) : Option (Text → Text → Bool) :=
  match String.ofList o with
  | "=" => some (· == ·)
  | "!=" => some (· != ·)
  | "<" => some (· < ·)
  | ">" => some (fun a b ↦ b < a)
  | _ => none

/-- Comparisons of numbers. -/
def numberComparison? (o : Text) : Option (Int → Int → Bool) :=
  match String.ofList o with
  | "-eq" => some (· == ·)
  | "-ne" => some (· != ·)
  | "-lt" => some (· < ·)
  | "-le" => some (· ≤ ·)
  | "-gt" => some (· > ·)
  | "-ge" => some (· ≥ ·)
  | _ => none

/-- The number that an argument denotes. -/
def number (a : Text) : Except String Int :=
  let isBlank (c : Char) : Bool := c = ' ' || c = '\t' || c = '\n'
  let trimmed := ((a.dropWhile isBlank).reverse.dropWhile isBlank).reverse
  let (negative, digits) := match trimmed with
    | '-' :: ds => (true, ds)
    | '+' :: ds => (false, ds)
    | ds => (false, ds)
  if digits ≠ [] ∧ digits.all Char.isDigit then
    let n : Int := digits.foldl (fun n d ↦ 10 * n + Shell.digitOf d) 0
    .ok (if negative then -n else n)
  else .error s!"Illegal number: {String.ofList a}"

/-- Questions about one argument. -/
def question? (files : FileTree) (dir : String) (o : Text) : Option (Text → Bool) :=
  let find (a : Text) : Option FileTree.Entry := files.find? dir (stringOfText a)
  match String.ofList o with
  | "-z" => some (· == [])
  | "-n" => some (· != [])
  | "-e" => some fun a ↦ (find a).isSome
  | "-r" => some fun a ↦ (find a).isSome
  | "-w" => some fun a ↦ (find a).isSome
  | "-f" => some fun a ↦ files.isFile dir (stringOfText a)
  | "-d" => some fun a ↦ find a == some .directory
  | "-x" => some fun a ↦ files.isExecutable dir (stringOfText a) || find a == some .directory
  | "-s" => some fun a ↦
    match find a with
    | some (.file data _) => data != []
    | some _ => true
    | none => false
  | "-t" => some fun _ ↦ false
  | "-h" => some fun _ ↦ false
  | "-L" => some fun _ ↦ false
  | _ => none

/-- A value and the arguments after it. -/
abbrev Judged := Except String (Bool × List Text)

variable (files : FileTree) (dir : String)

mutual

/-- Reads alternatives. The number bounds the depth. -/
def any : Nat → List Text → Judged
  | 0, _ => .error "expression too deep"
  | fuel + 1, args => do
    let (a, rest) ← all fuel args
    match rest with
    | ['-', 'o'] :: rest => do
      let (b, rest) ← any fuel rest
      .ok (a || b, rest)
    | rest => .ok (a, rest)

/-- Reads conditions that all have to hold. -/
def all : Nat → List Text → Judged
  | 0, _ => .error "expression too deep"
  | fuel + 1, args => do
    let (a, rest) ← one fuel args
    match rest with
    | ['-', 'a'] :: rest => do
      let (b, rest) ← all fuel rest
      .ok (a && b, rest)
    | rest => .ok (a, rest)

/-- Reads one condition. -/
def one : Nat → List Text → Judged
  | 0, _ => .error "expression too deep"
  | _, [] => .error "argument expected"
  | fuel + 1, a :: rest =>
    let compare : Option Judged := match rest with
      | o :: b :: rest =>
        match textComparison? o, numberComparison? o with
        | some f, _ => some (.ok (f a b, rest))
        | none, some f => some do .ok (f (← number a) (← number b), rest)
        | none, none => none
      | _ => none
    match compare with
    | some judged => judged
    | none =>
      if a = ['!'] ∧ rest ≠ [] then do
        let (b, rest) ← one fuel rest
        .ok (!b, rest)
      else if a = ['('] ∧ rest ≠ [] then do
        let (b, rest) ← any fuel rest
        match rest with
        | [')'] :: rest => .ok (b, rest)
        | _ => .error "closing paren expected"
      else
        match question? files dir a, rest with
        | some f, b :: rest => .ok (f b, rest)
        | _, rest => .ok (a != [], rest)

end

end Condition

/-- Whether the condition that arguments denote holds. -/
def condition (files : FileTree) (dir : String) (args : List Text) : Except String Bool :=
  match args with
  | [] => .ok false
  | args => do
    let (value, rest) ← Condition.any files dir (4 * args.length + 4) args
    match rest with
    | [] => .ok value
    | a :: _ => .error s!"{String.ofList a}: unexpected operator"

end Sidecar.World
