import Sidecar.World.Tool

/-!
# Redirections

Redirections change descriptors one after the other, each of them given the text of its target.
-/

namespace Sidecar.World

open Shell (Text Direction)

/-- A redirection with its target expanded. -/
structure Redirect where
  descriptor : Nat
  direction : Direction
  target : Text

/-- The place of a file that is written, made if it is not there and emptied unless it is
continued. -/
def openForWriting (w : World) (dir path : String) (continues : Bool) :
    Except String (FileTree.Place × World) :=
  match w.files.target? dir path with
  | none => .error s!"cannot create {path}: Directory nonexistent"
  | some place =>
    match w.files.get? place with
    | some .directory => .error s!"cannot create {path}: Is a directory"
    | some (.tool _) => .error s!"cannot create {path}: Permission denied"
    | some (.file data executable) =>
      .ok (place,
        { w with files := w.files.put place (.file (if continues then data else []) executable) })
    | none => .ok (place, { w with files := w.files.put place (.file [] false) })

/-- What the target of a redirection refers to; none closes the descriptor. -/
def openTarget (w : World) (dir : String) (descriptors : Descriptors) (r : Redirect) :
    Except String (Option Handle × World) :=
  let path := stringOfText r.target
  let duplicate (n : Nat) : Except String (Option Handle × World) :=
    match descriptors.get? n with
    | some h => .ok (some h, w)
    | none => .error s!"{n}: Bad file descriptor"
  match r.direction with
  | .duplicate =>
    if path = "-" then .ok (none, w)
    else if path ≠ "" ∧ r.target.all Char.isDigit then
      duplicate (r.target.foldl (fun n d ↦ 10 * n + Shell.digitOf d) 0)
    else .error "Syntax error: Bad fd number"
  | direction =>
    if path = "/dev/null" then .ok (some .null, w)
    else if path = "/dev/stdin" then duplicate 0
    else if path = "/dev/stdout" then duplicate 1
    else if path = "/dev/stderr" then duplicate 2
    else
      match direction with
      | .read =>
        match w.files.read dir path with
        | .error _ => .error s!"cannot open {path}: No such file"
        | .ok data =>
          .ok (some (.fileReader w.next),
            { w with next := w.next + 1, openings := w.openings.set w.next data })
      | direction => do
        let (place, w) ← w.openForWriting dir path (direction = .append)
        .ok (some (.fileWriter place), w)

/-- Changes descriptors by redirections. -/
def redirect (dir : String) : World → Descriptors → List Redirect →
    Except String (Descriptors × World)
  | w, descriptors, [] => .ok (descriptors, w)
  | w, descriptors, r :: rest => do
    match ← w.openTarget dir descriptors r with
    | (some h, w) => redirect dir w (descriptors.set r.descriptor h) rest
    | (none, w) => redirect dir w (descriptors.erase r.descriptor) rest

end Sidecar.World
