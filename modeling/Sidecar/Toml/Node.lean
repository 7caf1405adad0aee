/-!
# TOML tables

A document is a tree of tables. Where a table came from decides who may still add to it: a table
written by its own header is complete, one that a longer header or a dotted key passed through is
not. `Entries.assign` adds the value of a dotted key, and `Header` opens tables at the root.
-/

namespace Sidecar.Toml

/-- A value without parts. -/
inductive Scalar where
  | text (s : String)
  | integer (n : Int)
  | float (x : Float)
  | bool (b : Bool)
  /-- A date, a time, or both. -/
  | moment

/-- How a table came to be. -/
inductive TableKind where
  /-- By a header of its own. -/
  | header
  /-- On the way to the table of a longer header. -/
  | passing
  /-- On the way to the value of a dotted key. -/
  | dotted
  deriving DecidableEq, Repr

/-- A node of a document. -/
inductive Node where
  | scalar (s : Scalar)
  | array (items : List Node)
  /-- A table written in braces; nothing can be added to it. -/
  | braced (entries : List (String × Node))
  | table (kind : TableKind) (entries : List (String × Node))
  /-- The tables of a repeated header. -/
  | tables (items : List (List (String × Node)))

/-- The entries of a table in order. -/
abbrev Entries := List (String × Node)

namespace Entries

/-- The node under a key. -/
def find? (es : Entries) (key : String) : Option Node := es.lookup key

/-- Replaces the node under a key, in its place. -/
def replace (es : Entries) (key : String) (node : Node) : Entries :=
  es.map fun e ↦ if e.1 == key then (key, node) else e

/-- Removes the node under a key. -/
def remove (es : Entries) (key : String) : Entries := es.filter fun e ↦ !(e.1 == key)

/-- Adds a node under a new key. -/
def add? (es : Entries) (key : String) (node : Node) : Option Entries :=
  match es.find? key with
  | some _ => none
  | none => some (es ++ [(key, node)])

/-- Adds the value of a dotted key. Every table on the way is made by dotted keys, or was passed
through by a header and is not the last one. -/
def assign (key : String) (node : Node) : List String → Entries → Option Entries
  | [], es => es.add? key node
  | p :: path, es =>
    match es.find? p with
    | none => (assign key node path []).map fun sub ↦ es ++ [(p, .table .dotted sub)]
    | some (.table kind sub) =>
      if kind = .header ∨ (path = [] ∧ kind ≠ .dotted) then none
      else (assign key node path sub).map fun sub ↦ es.replace p (.table kind sub)
    | some (.tables items) =>
      if path = [] then none
      else
        match items.getLast? with
        | none => none
        | some sub =>
          (assign key node path sub).map fun sub ↦ es.replace p (.tables (items.dropLast ++ [sub]))
    | some _ => none

/-- Changes the table at a path, going through tables of any kind and through the last of repeated
ones; tables that are missing are made on the way. -/
def within {α : Type} (f : Entries → Option (α × Entries)) :
    List String → Entries → Option (α × Entries)
  | [], es => f es
  | p :: path, es =>
    match es.find? p with
    | none => (within f path []).map fun (a, sub) ↦ (a, es ++ [(p, .table .passing sub)])
    | some (.table kind sub) =>
      (within f path sub).map fun (a, sub) ↦ (a, es.replace p (.table kind sub))
    | some (.tables items) =>
      match items.getLast? with
      | none => none
      | some sub =>
        (within f path sub).map fun (a, sub) ↦
          (a, es.replace p (.tables (items.dropLast ++ [sub])))
    | some _ => none

end Entries
end Sidecar.Toml
