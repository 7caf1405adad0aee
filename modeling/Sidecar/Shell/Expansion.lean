import Sidecar.Shell.Arithmetic
import Sidecar.Shell.Pattern

/-!
# Expansion of words

A word is expanded into characters of which each knows whether it was quoted and whether it came
from an unquoted parameter. The latter may cut the word into fields, at the characters of the
variable that holds the separators.
-/

namespace Sidecar.Shell

/-- What a script knows about itself. -/
structure Context where
  /-- The name under which it runs. -/
  name : Text
  arguments : List Text
  bindings : Variables
  /-- The status of the last command. -/
  status : Nat
  /-- The number of its process. -/
  pid : Nat
  /-- The number of the last process that was not waited for. -/
  lastBackground : Option Nat

/-- A piece of an expanded word. -/
inductive Atom where
  | char (c : Char) (quoted : Bool)
  /-- A character of an unquoted value, which may separate fields. -/
  | loose (c : Char)
  /-- A field begins or goes on here, even if it is empty. -/
  | anchor
  /-- A field ends here. -/
  | gap
  deriving DecidableEq, Repr

/-- What ends a script in the middle of an expansion. -/
structure ExpansionFault where
  message : String
  deriving DecidableEq, Repr

/-- The context, the outputs of scripts in the words that are still to come, and atoms. -/
abbrev Expanded := Except ExpansionFault (Context × List Text × List Atom)

/-- The characters that separate fields. -/
def Context.separators (ctx : Context) : Text :=
  match ctx.bindings.get? "IFS".toList with
  | some s => s
  | none => [' ', '\t', '\n']

/-- A number as a text. -/
def natText (n : Nat) : Text := (toString n).toList

/-- The values of a parameter, if it has any; only the lists of arguments have several. -/
def Context.values? (ctx : Context) (name : Text) : Option (List Text) :=
  match name with
  | ['@'] => some ctx.arguments
  | ['*'] => some ctx.arguments
  | ['#'] => some [natText ctx.arguments.length]
  | ['?'] => some [natText ctx.status]
  | ['$'] => some [natText ctx.pid]
  | ['!'] => ctx.lastBackground.map fun n ↦ [natText n]
  | ['-'] => some [[]]
  | name =>
    if name.all Char.isDigit then
      let n := name.foldl (fun n d ↦ 10 * n + digitOf d) 0
      if n = 0 then some [ctx.name] else (ctx.arguments[n - 1]?).map ([·])
    else (ctx.bindings.get? name).map ([·])

/-- The value of a parameter as one text. -/
def Context.value? (ctx : Context) (name : Text) : Option Text :=
  let joint : Text := match name with
    | ['*'] => ctx.separators.take 1
    | _ => [' ']
  (ctx.values? name).map fun vs ↦ List.intercalate joint vs

/-- The atoms of the values of a parameter. -/
def Context.valueAtoms (ctx : Context) (name : Text) (quoted : Bool) (values : List Text) :
    List Atom :=
  let atoms (s : Text) : List Atom :=
    if quoted then .anchor :: s.map fun c ↦ .char c true else s.map .loose
  if quoted ∧ name = ['*'] then atoms (List.intercalate (ctx.separators.take 1) values)
  else (List.intersperse [.gap] (values.map atoms)).flatten

/-- The characters of atoms that are not cut into fields. -/
def atomChars (atoms : List Atom) : List (Char × Bool) :=
  atoms.flatMap fun
    | .char c quoted => [(c, quoted)]
    | .loose c => [(c, false)]
    | .anchor => []
    | .gap => [(' ', true)]

/-- The text of atoms that are not cut into fields. -/
def atomText (atoms : List Atom) : Text := (atomChars atoms).map (·.1)

/-- The pattern of atoms. -/
def atomPattern (atoms : List Atom) : List Glob :=
  let cs := atomChars atoms
  Glob.ofChars (cs.length + 1) cs

/-- The scripts in words whose output is part of them, in order. The number bounds the depth. -/
def scriptsOf : Nat → Word → List Text
  | 0, _ => []
  | _, [] => []
  | fuel + 1, part :: rest =>
    (match part with
      | .output script _ => [script]
      | .edit _ _ _ word _ => scriptsOf fuel word
      | .arithmetic word _ => scriptsOf fuel word
      | _ => []) ++ scriptsOf fuel rest

/-- A bound on the depth of a word. -/
def wordFuel : Nat := 1000000

/-- Drops line ends at the end of an output. -/
def trimOutput (s : Text) : Text := (s.reverse.dropWhile (· = '\n')).reverse

/-- Expands a word. The number bounds the depth. -/
def expandParts : Nat → Context → List Text → Word → Expanded
  | 0, ctx, outputs, _ => .ok (ctx, outputs, [])
  | _, ctx, outputs, [] => .ok (ctx, outputs, [])
  | fuel + 1, ctx, outputs, part :: rest => do
    let valued (ctx : Context) (outputs : List Text) (name : Text) (quoted : Bool) : Expanded :=
      .ok (ctx, outputs, ctx.valueAtoms name quoted ((ctx.values? name).getD []))
    let plain (quoted : Bool) (s : Text) : List Atom :=
      if quoted then .anchor :: s.map fun c ↦ .char c true else s.map .loose
    let (ctx, outputs, atoms) ← match part with
      | .text s quoted =>
        .ok (ctx, outputs,
          if quoted then .anchor :: s.map fun c ↦ .char c true
          else s.map fun c ↦ .char c false)
      | .parameter name quoted => valued ctx outputs name quoted
      | .length name quoted =>
        .ok (ctx, outputs, plain quoted (natText ((ctx.value? name).getD []).length))
      | .arithmetic word quoted => do
        let (ctx, outputs, atoms) ← expandParts fuel ctx outputs word
        let expression := atomText atoms
        match evaluate? ctx.bindings expression with
        | some (n, bindings) =>
          .ok ({ ctx with bindings }, outputs, plain quoted (numberText n))
        | none => .error ⟨"arithmetic expression: error: " ++ s!"\"{String.ofList expression}\""⟩
      | .output _ quoted =>
        match outputs with
        | s :: outputs => .ok (ctx, outputs, plain quoted (trimOutput s))
        | [] => .ok (ctx, [], [])
      | .edit name how colon word quoted => do
        let value := ctx.value? name
        let missing := match value with
          | none => true
          | some v => colon && v.isEmpty
        let skipped := outputs.drop (scriptsOf wordFuel word).length
        match how with
        | .default =>
          if missing then expandParts fuel ctx outputs word else valued ctx skipped name quoted
        | .alternative =>
          if missing then .ok (ctx, skipped, if quoted then [.anchor] else [])
          else expandParts fuel ctx outputs word
        | .assign =>
          if missing then do
            let (ctx, outputs, atoms) ← expandParts fuel ctx outputs word
            let ctx := { ctx with bindings := ctx.bindings.set name (atomText atoms) }
            valued ctx outputs name quoted
          else valued ctx skipped name quoted
        | .complain =>
          if missing then do
            let (_, _, atoms) ← expandParts fuel ctx outputs word
            let text := if word.isEmpty then
              if colon then "parameter not set or null" else "parameter not set"
              else String.ofList (atomText atoms)
            .error ⟨s!"{String.ofList name}: " ++ text⟩
          else valued ctx skipped name quoted
        | .dropPrefix longest => do
          let (ctx, outputs, atoms) ← expandParts fuel ctx outputs word
          .ok (ctx, outputs,
            plain quoted (dropGlobPrefix (atomPattern atoms) longest (value.getD [])))
        | .dropSuffix longest => do
          let (ctx, outputs, atoms) ← expandParts fuel ctx outputs word
          .ok (ctx, outputs,
            plain quoted (dropGlobSuffix (atomPattern atoms) longest (value.getD [])))
    let (ctx, outputs, more) ← expandParts fuel ctx outputs rest
    .ok (ctx, outputs, atoms ++ more)

/-- Where the cutting of fields stands. -/
inductive FieldState where
  /-- At the beginning, or after a separator that is no blank. -/
  | fresh
  /-- After blanks that ended a field. -/
  | blank
  /-- In a field, its characters latest first. -/
  | inside (field : Text)

/-- Whether a separator is a blank. -/
def isBlankSeparator (c : Char) : Bool := c = ' ' || c = '\t' || c = '\n'

/-- Cuts atoms into fields. -/
def cutFields (separators : Text) : FieldState → List Atom → List Text
  | .inside field, [] => [field.reverse]
  | _, [] => []
  | st, .char c _ :: rest =>
    cutFields separators (.inside (match st with
      | .inside field => c :: field
      | _ => [c])) rest
  | st, .anchor :: rest =>
    cutFields separators (.inside (match st with
      | .inside field => field
      | _ => [])) rest
  | st, .gap :: rest =>
    match st with
    | .inside field => field.reverse :: cutFields separators .fresh rest
    | _ => cutFields separators .fresh rest
  | st, .loose c :: rest =>
    if separators.contains c then
      if isBlankSeparator c then
        match st with
        | .inside field => field.reverse :: cutFields separators .blank rest
        | st => cutFields separators st rest
      else
        match st with
        | .inside field => field.reverse :: cutFields separators .fresh rest
        | .blank => cutFields separators .fresh rest
        | .fresh => [] :: cutFields separators .fresh rest
    else
      cutFields separators (.inside (match st with
        | .inside field => c :: field
        | _ => [c])) rest

/-- Expands words into fields. -/
def expandWords : Context → List Text → List Word →
    Except ExpansionFault (Context × List Text × List Text)
  | ctx, outputs, [] => .ok (ctx, outputs, [])
  | ctx, outputs, word :: rest => do
    let (ctx, outputs, atoms) ← expandParts wordFuel ctx outputs word
    let fields := cutFields ctx.separators .fresh atoms
    let (ctx, outputs, more) ← expandWords ctx outputs rest
    .ok (ctx, outputs, fields ++ more)

/-- Cuts a line into as many fields as there are names; the last one takes what is left. -/
def splitLine (separators : Text) : Nat → Text → List Text
  | 0, _ => []
  | count + 1, s =>
    let isBlank (c : Char) : Bool := separators.contains c && isBlankSeparator c
    let s := s.dropWhile isBlank
    if count = 0 then
      let trimmed := (s.reverse.dropWhile isBlank).reverse
      match trimmed.reverse with
      | c :: before =>
        if separators.contains c ∧ ¬ (before.any separators.contains) then [before.reverse]
        else [trimmed]
      | [] => [[]]
    else
      let field := s.takeWhile fun c ↦ !separators.contains c
      let rest := (s.dropWhile fun c ↦ !separators.contains c).dropWhile isBlank
      let rest := match rest with
        | c :: after => if separators.contains c then after else rest
        | [] => []
      field :: splitLine separators count rest

end Sidecar.Shell
