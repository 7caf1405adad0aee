import Sidecar.Shell.Syntax
import Sidecar.Table

/-!
# Arithmetic of the command language

Expressions over signed 64-bit integers that wrap around. Variables hold their values as texts; one
that is missing or empty is zero. An expression is read by climbing precedences and evaluated on
the way, so that the part that a condition skips changes no variable.
-/

namespace Sidecar.Shell

/-- The variables of a script. -/
abbrev Variables := Table Text Text

/-- A lexeme of an expression. -/
inductive ArithToken where
  | number (n : Int)
  | name (s : Text)
  | operator (s : Text)
  deriving DecidableEq, Repr

/-- The operators, longer ones first. -/
def arithOperators : List Text :=
  ["<<=", ">>=", "<<", ">>", "<=", ">=", "==", "!=", "&&", "||", "+=", "-=", "*=", "/=", "%=", "&=",
    "|=", "^=", "+", "-", "*", "/", "%", "(", ")", "<", ">", "=", "!", "~", "&", "|", "^", "?",
    ":"].map String.toList

/-- The value of a digit in bases up to sixteen. -/
def digitOf (c : Char) : Nat :=
  if c.isDigit then c.toNat - 48 else if c.isLower then c.toNat - 87 else c.toNat - 55

/-- A number: decimal, octal after a zero, hexadecimal after a zero and an x. -/
def parseNumber? (s : Text) : Option Int :=
  let ofBase (base : Nat) (ds : Text) : Option Int :=
    if ds.all fun d ↦ d.isAlphanum && digitOf d < base then
      some (ds.foldl (fun n d ↦ base * n + digitOf d) 0 : Nat)
    else none
  match s with
  | [] => none
  | '0' :: x :: ds =>
    if x = 'x' ∨ x = 'X' then if ds = [] then none else ofBase 16 ds else ofBase 8 (x :: ds)
  | s => ofBase 10 s

/-- The lexemes of an expression. The number bounds them. -/
def arithTokens : Nat → Text → Option (List ArithToken)
  | 0, _ => none
  | _, [] => some []
  | fuel + 1, c :: cs =>
    if c = ' ' ∨ c = '\t' ∨ c = '\n' then arithTokens fuel cs
    else if c.isAlphanum ∨ c = '_' then
      let word := (c :: cs).takeWhile fun c ↦ c.isAlphanum || c = '_'
      let rest := (c :: cs).dropWhile fun c ↦ c.isAlphanum || c = '_'
      if c.isDigit then do
        let n ← parseNumber? word
        (arithTokens fuel rest).map (.number n :: ·)
      else (arithTokens fuel rest).map (.name word :: ·)
    else
      match arithOperators.find? fun o ↦ o.isPrefixOf (c :: cs) with
      | some o => (arithTokens fuel ((c :: cs).drop o.length)).map (.operator o :: ·)
      | none => none

/-- An integer reduced to 64 bits with a sign. -/
def wrap (n : Int) : Int := Int.bmod n 0x1_0000_0000_0000_0000

/-- A truth value as a number. -/
def ofBool (b : Bool) : Int := if b then 1 else 0

/-- The bits of two numbers combined. -/
def bitwise (f : UInt64 → UInt64 → UInt64) (a b : Int) : Int :=
  wrap (f (UInt64.ofInt a) (UInt64.ofInt b)).toNat

/-- How tightly a binary operator binds. -/
def precedence (o : String) : Option Nat :=
  match o with
  | "||" => some 1
  | "&&" => some 2
  | "|" => some 3
  | "^" => some 4
  | "&" => some 5
  | "==" => some 6
  | "!=" => some 6
  | "<" => some 7
  | ">" => some 7
  | "<=" => some 7
  | ">=" => some 7
  | "<<" => some 8
  | ">>" => some 8
  | "+" => some 9
  | "-" => some 9
  | "*" => some 10
  | "/" => some 10
  | "%" => some 10
  | _ => none

/-- The value of a binary operator; there is none for a division by zero. -/
def applyBinary (o : String) (a b : Int) : Option Int :=
  match o with
  | "||" => some (ofBool (a ≠ 0 || b ≠ 0))
  | "&&" => some (ofBool (a ≠ 0 && b ≠ 0))
  | "|" => some (bitwise (· ||| ·) a b)
  | "^" => some (bitwise (· ^^^ ·) a b)
  | "&" => some (bitwise (· &&& ·) a b)
  | "==" => some (ofBool (a = b))
  | "!=" => some (ofBool (a ≠ b))
  | "<" => some (ofBool (a < b))
  | ">" => some (ofBool (a > b))
  | "<=" => some (ofBool (a ≤ b))
  | ">=" => some (ofBool (a ≥ b))
  | "<<" => some (wrap (a * Int.pow 2 (b % 64).toNat))
  | ">>" => some (a / Int.pow 2 (b % 64).toNat)
  | "+" => some (wrap (a + b))
  | "-" => some (wrap (a - b))
  | "*" => some (wrap (a * b))
  | "/" => if b = 0 then none else some (wrap (Int.tdiv a b))
  | "%" => if b = 0 then none else some (Int.tmod a b)
  | _ => none

/-- The value of a variable as a number. -/
def variableNumber? (vars : Variables) (name : Text) : Option Int :=
  match vars.get? name with
  | none => some 0
  | some [] => some 0
  | some ('-' :: ds) => (parseNumber? ds).map fun n ↦ wrap (-n)
  | some ('+' :: ds) => (parseNumber? ds).map wrap
  | some ds => (parseNumber? ds).map wrap

/-- The text of a number. -/
def numberText (n : Int) : Text := (toString n).toList

/-- What evaluation gives: a value, the variables, and the lexemes left over. -/
abbrev Evaluated := Option (Int × Variables × List ArithToken)

mutual

/-- Evaluates an expression with assignments and conditions. Variables change only if it is live. -/
def evalAssignment (live : Bool) : Nat → Variables → List ArithToken → Evaluated
  | 0, _, _ => none
  | fuel + 1, vars, ts =>
    match ts with
    | .name x :: .operator o :: rest =>
      let o := String.ofList o
      if o = "=" then do
        let (v, vars, rest) ← evalAssignment live fuel vars rest
        some (v, if live then vars.set x (numberText v) else vars, rest)
      else if o.length ≥ 2 ∧ o.endsWith "=" ∧ ¬ ["==", "!=", "<=", ">="].contains o then do
        let old ← variableNumber? vars x
        let (v, vars, rest) ← evalAssignment live fuel vars rest
        let v ← if live then applyBinary (String.ofList (o.toList.dropLast)) old v else some 0
        some (v, if live then vars.set x (numberText v) else vars, rest)
      else evalCondition live fuel vars ts
    | ts => evalCondition live fuel vars ts

/-- Evaluates an expression that may be a condition with two branches. -/
def evalCondition (live : Bool) : Nat → Variables → List ArithToken → Evaluated
  | 0, _, _ => none
  | fuel + 1, vars, ts => do
    let (c, vars, rest) ← evalBinary live fuel 1 vars ts
    match rest with
    | .operator ['?'] :: rest => do
      let (a, vars, rest) ← evalAssignment (live && c ≠ 0) fuel vars rest
      match rest with
      | .operator [':'] :: rest => do
        let (b, vars, rest) ← evalCondition (live && c = 0) fuel vars rest
        some (if c ≠ 0 then a else b, vars, rest)
      | _ => none
    | rest => some (c, vars, rest)

/-- Evaluates operators that bind at least as tightly as a precedence. -/
def evalBinary (live : Bool) : Nat → Nat → Variables → List ArithToken → Evaluated
  | 0, _, _, _ => none
  | fuel + 1, least, vars, ts => do
    let (a, vars, rest) ← evalUnary live fuel vars ts
    evalOperators live fuel least a vars rest

/-- Goes on with operators after a first operand. -/
def evalOperators (live : Bool) : Nat → Nat → Int → Variables → List ArithToken → Evaluated
  | 0, _, _, _, _ => none
  | fuel + 1, least, a, vars, ts =>
    match ts with
    | .operator o :: rest =>
      let o := String.ofList o
      match precedence o with
      | none => some (a, vars, ts)
      | some p =>
        if p < least then some (a, vars, ts)
        else do
          let skips := (o = "&&" && a = 0) || (o = "||" && a ≠ 0)
          let (b, vars, rest) ← evalBinary (live && !skips) fuel (p + 1) vars rest
          let v ← if live && !skips then applyBinary o a b else some (ofBool (o = "||"))
          evalOperators live fuel least v vars rest
    | ts => some (a, vars, ts)

/-- Evaluates an operand. -/
def evalUnary (live : Bool) : Nat → Variables → List ArithToken → Evaluated
  | 0, _, _ => none
  | fuel + 1, vars, ts =>
    match ts with
    | .number n :: rest => some (wrap n, vars, rest)
    | .name x :: rest => (variableNumber? vars x).map fun v ↦ (v, vars, rest)
    | .operator ['('] :: rest => do
      let (v, vars, rest) ← evalAssignment live fuel vars rest
      match rest with
      | .operator [')'] :: rest => some (v, vars, rest)
      | _ => none
    | .operator ['-'] :: rest =>
      (evalUnary live fuel vars rest).map fun (v, vars, rest) ↦ (wrap (-v), vars, rest)
    | .operator ['+'] :: rest => evalUnary live fuel vars rest
    | .operator ['!'] :: rest =>
      (evalUnary live fuel vars rest).map fun (v, vars, rest) ↦ (ofBool (v = 0), vars, rest)
    | .operator ['~'] :: rest =>
      (evalUnary live fuel vars rest).map fun (v, vars, rest) ↦ (-v - 1, vars, rest)
    | _ => none

end

/-- The value of an expression, and the variables after it. -/
def evaluate? (vars : Variables) (expression : Text) : Option (Int × Variables) := do
  let ts ← arithTokens (expression.length + 1) expression
  if ts = [] then some (0, vars)
  else
    match evalAssignment true (16 * (ts.length + 1)) vars ts with
    | some (v, vars, []) => some (v, vars)
    | _ => none

end Sidecar.Shell
