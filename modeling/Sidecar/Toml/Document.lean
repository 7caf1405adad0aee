import Sidecar.Toml.Statement

/-!
# TOML documents

Statements are gathered into a tree of tables. The entries under a header are collected first and
put in their place when the next header, or the end, comes; a table that an earlier header passed
through is taken out when its own header opens it, and so moves to the end.
-/

namespace Sidecar.Toml

/-- Where the table being collected belongs. -/
structure Place where
  parents : List String
  key : String
  /-- Whether it is one of the tables of a repeated header. -/
  repeated : Bool

/-- A document between two statements. -/
structure Draft where
  /-- The entries put in place. -/
  root : Entries
  /-- The entries of the table being collected. -/
  current : Entries
  /-- The place of that table; before the first header it is the root. -/
  place : Option Place

namespace Draft

/-- Puts the table being collected in its place. -/
def settle (d : Draft) : Option Entries :=
  match d.place with
  | none => some d.current
  | some ⟨parents, key, false⟩ =>
    (Entries.within (fun es ↦ (es.add? key (.table .header d.current)).map (((), ·)))
      parents d.root).map (·.2)
  | some ⟨parents, key, true⟩ =>
    let put (es : Entries) : Option (Unit × Entries) :=
      match es.find? key with
      | some (.tables items) => some ((), es.replace key (.tables (items ++ [d.current])))
      | _ => none
    (Entries.within put parents d.root).map (·.2)

/-- Takes out the table that a header opens, if it was passed through before. -/
def opened (key : String) (es : Entries) : Option (Entries × Entries) :=
  match es.find? key with
  | none => some ([], es)
  | some (.table .passing sub) => some (sub, es.remove key)
  | some _ => none

/-- Makes sure that a key holds the tables of a repeated header. -/
def openedAgain (key : String) (es : Entries) : Option (Entries × Entries) :=
  match es.find? key with
  | none => some ([], es ++ [(key, .tables [])])
  | some (.tables _) => some ([], es)
  | some _ => none

/-- Follows a statement. -/
def step (d : Draft) : Statement → Option Draft
  | .assignment parents key value =>
    (d.current.assign key value parents).map fun current ↦ { d with current }
  | .header parents key => do
    let (current, root) ← Entries.within (opened key) parents (← d.settle)
    some ⟨root, current, some ⟨parents, key, false⟩⟩
  | .repeatedHeader parents key => do
    let (current, root) ← Entries.within (openedAgain key) parents (← d.settle)
    some ⟨root, current, some ⟨parents, key, true⟩⟩

end Draft

/-- The entries of a document, in order. -/
def document? (source : String) : Option Entries := do
  let d ← (← statements? source).foldlM Draft.step ⟨[], [], none⟩
  d.settle

end Sidecar.Toml
