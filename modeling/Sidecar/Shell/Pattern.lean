import Sidecar.Shell.Syntax

/-!
# Patterns

A pattern matches whole texts. A star stands for any text, a question mark for any character, and
brackets for one of the characters in them; quoted characters stand for themselves.
-/

namespace Sidecar.Shell

/-- An item of a pattern. -/
inductive Glob where
  | literal (c : Char)
  | any
  | many
  /-- One of some ranges of characters, or none of them. -/
  | oneOf (isNegated : Bool) (ranges : List (Char × Char))
  deriving DecidableEq, Repr

/-- Reads the ranges inside brackets up to the closing one, given whether any has been read. -/
def readRanges : Bool → List (Char × Bool) → Option (List (Char × Char) × List (Char × Bool))
  | _, [] => none
  | hasRead, (c, quoted) :: rest =>
    if c = ']' ∧ !quoted ∧ hasRead then some ([], rest)
    else
      match rest with
      | ('-', false) :: (d, quotedEnd) :: rest =>
        if d = ']' ∧ !quotedEnd then
          (readRanges true (('-', false) :: (d, quotedEnd) :: rest)).map fun (rs, r) ↦
            ((c, c) :: rs, r)
        else (readRanges true rest).map fun (rs, r) ↦ ((c, d) :: rs, r)
      | rest => (readRanges true rest).map fun (rs, r) ↦ ((c, c) :: rs, r)
termination_by _ cs => cs.length

/-- The pattern of characters of which each knows whether it is quoted. The number bounds the
steps. -/
def Glob.ofChars : Nat → List (Char × Bool) → List Glob
  | 0, _ => []
  | _, [] => []
  | fuel + 1, (c, quoted) :: rest =>
    if quoted then .literal c :: ofChars fuel rest
    else if c = '*' then .many :: ofChars fuel rest
    else if c = '?' then .any :: ofChars fuel rest
    else if c = '[' then
      let (isNegated, inner) := match rest with
        | ('!', false) :: rest => (true, rest)
        | ('^', false) :: rest => (true, rest)
        | rest => (false, rest)
      match readRanges false inner with
      | some (ranges, rest) => .oneOf isNegated ranges :: ofChars fuel rest
      | none => .literal c :: ofChars fuel rest
    else .literal c :: ofChars fuel rest

/-- Whether an item other than a star matches a character. -/
def Glob.admits (g : Glob) (c : Char) : Bool :=
  match g with
  | .literal d => c = d
  | .any => true
  | .many => true
  | .oneOf isNegated ranges => (ranges.any fun (a, b) ↦ a ≤ c && c ≤ b) != isNegated

/-- Whether a pattern matches a text as a whole. -/
def globMatches : List Glob → Text → Bool
  | [], cs => cs.isEmpty
  | .many :: gs, [] => globMatches gs []
  | .many :: gs, c :: cs => globMatches gs (c :: cs) || globMatches (.many :: gs) cs
  | _ :: _, [] => false
  | g :: gs, c :: cs => g.admits c && globMatches gs cs
termination_by gs cs => gs.length + cs.length

/-- The lengths from zero up to a number, or from it down. -/
def lengths (n : Nat) (down : Bool) : List Nat :=
  if down then (List.range (n + 1)).reverse else List.range (n + 1)

/-- A text without the shortest or longest start that a pattern matches. -/
def dropGlobPrefix (gs : List Glob) (longest : Bool) (s : Text) : Text :=
  match (lengths s.length longest).find? fun n ↦ globMatches gs (s.take n) with
  | some n => s.drop n
  | none => s

/-- A text without the shortest or longest end that a pattern matches. -/
def dropGlobSuffix (gs : List Glob) (longest : Bool) (s : Text) : Text :=
  match (lengths s.length longest).find? fun n ↦ globMatches gs (s.drop (s.length - n)) with
  | some n => s.take (s.length - n)
  | none => s

end Sidecar.Shell
