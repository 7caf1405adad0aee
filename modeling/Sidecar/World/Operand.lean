import Sidecar.Bytes
import Sidecar.Shell.Printf

/-!
# Operands of programs

What the operands of a recoding and of a sleep denote. A set of characters is written with
ranges, escapes and class names; a recoding replaces the members of one set by those of another,
deletes them, or squeezes runs of them.
-/

namespace Sidecar.World

open Shell (Text)

/-- Whether an argument is an option. -/
def isOption (a : Text) : Bool := a.length ≥ 2 && a.head? = some '-'

/-- The bytes of a set of characters: ranges, escapes, and classes of letters and digits. -/
def expandSet : Nat → Text → Text
  | 0, _ => []
  | _, [] => []
  | fuel + 1, '[' :: ':' :: cs =>
    let name := String.ofList (cs.takeWhile (· ≠ ':'))
    let range (a b : Char) : Text :=
      (List.range (b.toNat - a.toNat + 1)).map fun n ↦ Char.ofNat (a.toNat + n)
    let rest := (cs.dropWhile (· ≠ ':')).drop 2
    let members : Option Text := match name with
      | "lower" => some (range 'a' 'z')
      | "upper" => some (range 'A' 'Z')
      | "digit" => some (range '0' '9')
      | "alpha" => some (range 'A' 'Z' ++ range 'a' 'z')
      | "alnum" => some (range '0' '9' ++ range 'A' 'Z' ++ range 'a' 'z')
      | "space" => some ['\t', '\n', '\x0b', '\x0c', '\r', ' ']
      | "blank" => some ['\t', ' ']
      | _ => none
    match members with
    | some s => s ++ expandSet fuel rest
    | none => '[' :: expandSet fuel (':' :: cs)
  | fuel + 1, c :: cs =>
    let (first, rest) := if c = '\\' then Shell.unescape cs else (c, cs)
    match rest with
    | '-' :: d :: after =>
      let (last, after) := if d = '\\' then Shell.unescape after else (d, after)
      if first ≤ last then
        (List.range (last.toNat - first.toNat + 1)).map (fun n ↦ Char.ofNat (first.toNat + n)) ++
          expandSet fuel after
      else first :: expandSet fuel rest
    | rest => first :: expandSet fuel rest

/-- The set that an operand of a recoding denotes. -/
def setOf (a : Text) : Text := expandSet (a.length + 1) a

/-- Drops a byte that repeats the one before it, if it is in a set. -/
def squeeze (set : Text) (bytes : Bytes) : Bytes :=
  bytes.foldr (fun b rest ↦
    if set.contains (Char.ofNat b.toNat) ∧ rest.head? = some b then rest else b :: rest) []

/-- The recoding that operands ask for. -/
def recoding? (arguments : List Text) : Option (Bytes → Bytes) :=
  let options := (arguments.takeWhile isOption).flatMap (·.drop 1)
  let operands := arguments.dropWhile isOption
  let isIn (set : Text) (b : UInt8) : Bool :=
    set.contains (Char.ofNat b.toNat) != (options.contains 'c' || options.contains 'C')
  if ¬ options.all (['c', 'C', 'd', 's'].contains ·) then none
  else
    match operands with
    | [a] =>
      let set := setOf a
      if options.contains 'd' then some fun bytes ↦ bytes.filter fun b ↦ !isIn set b
      else if options.contains 's' then some (squeeze set)
      else none
    | [a, b] =>
      if options.contains 'd' then none
      else
        let members := setOf a
        let images := setOf b
        match images.getLast? with
        | none => none
        | some last =>
          let change (b : UInt8) : UInt8 :=
            if options.contains 'c' ∨ options.contains 'C' then
              if isIn members b then UInt8.ofNat last.toNat else b
            else
              match members.reverse.findIdx? (· = Char.ofNat b.toNat) with
              | some i => UInt8.ofNat ((images[members.length - 1 - i]?).getD last).toNat
              | none => b
          some fun bytes ↦
            let changed := bytes.map change
            if options.contains 's' then squeeze images changed else changed
    | _ => none

/-- The nanoseconds of an operand of a sleep; none for an operand that is no duration. -/
def sleepTime? (a : Text) : Option (Option Nat) :=
  let unit (c : Char) : Option Nat := match c with
    | 's' => some 1
    | 'm' => some 60
    | 'h' => some 3600
    | 'd' => some 86400
    | _ => none
  if a = "infinity".toList ∨ a = "inf".toList then some none
  else
    let (digits, factor) := match a.getLast?.bind unit with
      | some f => (a.dropLast, f)
      | none => (a, 1)
    let whole := digits.takeWhile Char.isDigit
    let rest := digits.dropWhile Char.isDigit
    let number (ds : Text) : Nat := ds.foldl (fun n d ↦ 10 * n + Shell.digitOf d) 0
    match rest with
    | [] => if whole = [] then none else some (some (number whole * factor * 1_000_000_000))
    | '.' :: fraction =>
      if fraction.all Char.isDigit ∧ (whole ≠ [] ∨ fraction ≠ []) then
        let scaled := number (whole ++ fraction) * factor * 1_000_000_000
        some (some (scaled / Nat.pow 10 fraction.length))
      else none
    | _ => none

end Sidecar.World
