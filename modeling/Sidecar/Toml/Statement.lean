import Sidecar.Toml.Scalar
import Sidecar.Toml.Text

/-!
# TOML statements

A source is read into its statements: headers of tables, and assignments of values to paths. A
statement takes the whole of its last line, which may end in a comment. Brackets nest to a limit.
-/

namespace Sidecar.Toml

/-- A statement of a document. -/
inductive Statement where
  /-- Opens a table. -/
  | header (parents : List String) (key : String)
  /-- Opens one more table of the same header. -/
  | repeatedHeader (parents : List String) (key : String)
  /-- Gives the value of a path. -/
  | assignment (parents : List String) (key : String) (value : Node)

/-- The most keys in a path, and the most brackets within brackets. -/
def depthLimit : Nat := 79

/-- The text after blanks, line breaks and comments. -/
def skipGaps (inComment : Bool) : List Char → List Char
  | '\n' :: cs => skipGaps false cs
  | '\r' :: '\n' :: cs => skipGaps false cs
  | c :: cs =>
    if inComment then if isPlain c then skipGaps true cs else c :: cs
    else if c = '#' then skipGaps true cs
    else if isBlank c then skipGaps false cs
    else c :: cs
  | [] => []

/-- The text after the rest of a line, which may hold a comment and nothing else. -/
def afterLine? (cs : List Char) : Option (List Char) :=
  let rest := match skipBlanks cs with
    | '#' :: cs => cs.dropWhile isPlain
    | cs => cs
  match rest with
  | [] => some []
  | c :: cs => afterNewline? (c :: cs)

/-- Reads a path and splits its last key off. -/
def readPlace (cs : List Char) : Option (List String × String × List Char) := do
  let (path, cs) ← readPath depthLimit cs
  match path.reverse with
  | key :: parents => some (parents.reverse, key, cs)
  | [] => none

/-- Reads the items of a list up to its closing bracket. The number bounds the items. -/
def readItems (read : List Char → Option (Node × List Char)) :
    Nat → List Char → Option (List Node × List Char)
  | 0, _ => none
  | fuel + 1, cs =>
    match skipGaps false cs with
    | ']' :: cs => some ([], cs)
    | cs => do
      let (item, cs) ← read cs
      match skipGaps false cs with
      | ',' :: cs => (readItems read fuel cs).map fun (items, cs) ↦ (item :: items, cs)
      | ']' :: cs => some ([item], cs)
      | _ => none

/-- Reads a path, an equals sign and a value. -/
def readAssignment (read : List Char → Option (Node × List Char)) (cs : List Char) :
    Option (List String × String × Node × List Char) := do
  let (parents, key, cs) ← readPlace cs
  match cs with
  | '=' :: cs => (read (skipBlanks cs)).map fun (value, cs) ↦ (parents, key, value, cs)
  | _ => none

/-- Reads the entries of a table in braces that is not empty, up to its closing brace. -/
def readBraced (read : List Char → Option (Node × List Char)) :
    Nat → Entries → List Char → Option (Entries × List Char)
  | 0, _, _ => none
  | fuel + 1, es, cs => do
    let (parents, key, value, cs) ← readAssignment read cs
    let es ← es.assign key value parents
    match skipBlanks cs with
    | ',' :: cs => readBraced read fuel es cs
    | '}' :: cs => some (es, cs)
    | _ => none

/-- Reads a value in which brackets nest to a depth. -/
def readValue : Nat → List Char → Option (Node × List Char)
  | _, '"' :: cs => (readText ('"' :: cs)).map fun (s, cs) ↦ (.scalar (.text s), cs)
  | _, '\'' :: cs => (readText ('\'' :: cs)).map fun (s, cs) ↦ (.scalar (.text s), cs)
  | depth + 1, '[' :: cs =>
    (readItems (readValue depth) (cs.length + 1) cs).map fun (items, cs) ↦ (.array items, cs)
  | depth + 1, '{' :: cs =>
    match skipBlanks cs with
    | '}' :: cs => some (.braced [], cs)
    | cs =>
      (readBraced (readValue depth) (cs.length + 1) [] cs).map fun (es, cs) ↦ (.braced es, cs)
  | _, cs => (readWord cs).map fun (s, cs) ↦ (.scalar s, cs)

/-- Reads the statement that begins a line. -/
def readStatement : List Char → Option (Statement × List Char)
  | '[' :: '[' :: cs => do
    let (parents, key, cs) ← readPlace cs
    match cs with
    | ']' :: ']' :: cs => (afterLine? cs).map fun cs ↦ (.repeatedHeader parents key, cs)
    | _ => none
  | '[' :: cs => do
    let (parents, key, cs) ← readPlace cs
    match cs with
    | ']' :: cs => (afterLine? cs).map fun cs ↦ (.header parents key, cs)
    | _ => none
  | cs => do
    let (parents, key, value, cs) ← readAssignment (readValue depthLimit) cs
    (afterLine? cs).map fun cs ↦ (.assignment parents key value, cs)

/-- Reads statements to the end. The number bounds the lines. -/
def readStatements : Nat → List Char → Option (List Statement)
  | 0, _ => none
  | fuel + 1, cs =>
    match skipBlanks cs with
    | [] => some []
    | c :: cs =>
      if c = '#' ∨ c = '\n' ∨ c = '\r' then (afterLine? (c :: cs)).bind (readStatements fuel)
      else do
        let (statement, cs) ← readStatement (c :: cs)
        (readStatements fuel cs).map (statement :: ·)

/-- The statements of a source; a byte order mark in front of them is dropped. -/
def statements? (source : String) : Option (List Statement) :=
  let cs := match source.toList with
    | '\uFEFF' :: cs => cs
    | cs => cs
  readStatements (cs.length + 1) cs

end Sidecar.Toml
