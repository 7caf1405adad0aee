import Sidecar.Failure
import Sidecar.Files.Path
import Sidecar.Text.Utf8

/-!
# Directories and files

A tree is a set of places, each a list of names below the root, with a file or a directory at each
of them. `walk` finds the place that a path names and says why there is none; it goes through
directories only, and a path that ends in a slash names a directory.
-/

namespace Sidecar

/-- The programs that the system brings along. -/
inductive Tool where
  | sh
  | cat
  | tr
  | sleep
  | mv
  deriving DecidableEq, Repr

/-- The name of a program. -/
def Tool.name : Tool → String
  | .sh => "sh"
  | .cat => "cat"
  | .tr => "tr"
  | .sleep => "sleep"
  | .mv => "mv"

/-- All programs that the system brings along. -/
def Tool.all : List Tool := [.sh, .cat, .tr, .sleep, .mv]

/-- What is at a place. -/
inductive FileTree.Entry where
  | file (data : Bytes) (executable : Bool)
  /-- An executable file that holds one of the system's programs. -/
  | tool (tool : Tool)
  | directory
  deriving DecidableEq, Repr

/-- A place: names from the root down. -/
abbrev FileTree.Place := List String

/-- Files and directories by their places; the root is always there. -/
structure FileTree where
  entries : List (FileTree.Place × FileTree.Entry)
  deriving DecidableEq, Repr

namespace FileTree

/-- What is at a place. -/
def get? (t : FileTree) (place : Place) : Option Entry :=
  if place = [] then some .directory else t.entries.lookup place

/-- Puts something at a place, instead of what was there. -/
def put (t : FileTree) (place : Place) (entry : Entry) : FileTree :=
  ⟨(place, entry) :: t.entries.filter fun e ↦ e.1 ≠ place⟩

/-- Removes what is at a place. -/
def remove (t : FileTree) (place : Place) : FileTree :=
  ⟨t.entries.filter fun e ↦ e.1 ≠ place⟩

/-- Moves what is at a place, and all that is below it. -/
def move (t : FileTree) (source target : Place) : FileTree :=
  if source = target then t
  else
    let kept := t.entries.filter fun e ↦ ¬ target.isPrefixOf e.1
    ⟨kept.map fun e ↦
      if source.isPrefixOf e.1 then (target ++ e.1.drop source.length, e.2) else e⟩

/-- The errors of looking a path up. -/
inductive PathFault where
  | missing
  | notDirectory
  | isDirectory
  | nameTooLong
  /-- A path cannot hold NUL. -/
  | nul
  deriving DecidableEq, Repr

/-- The error as it is reported. -/
def PathFault.toIoFault : PathFault → IoFault
  | .missing => .ofSystem .notFound "No such file or directory" 2
  | .notDirectory => .ofSystem .uncategorized "Not a directory" 20
  | .isDirectory => .ofSystem .uncategorized "Is a directory" 21
  | .nameTooLong => .ofSystem .uncategorized "File name too long" 36
  | .nul => ⟨.invalidInput, "file name contained an unexpected NUL byte"⟩

/-- The most bytes in one name. -/
def maxName : Nat := 255

/-- The number of bytes that no path reaches. -/
def maxPath : Nat := 4096

/-- Goes down by names from a place. -/
def descend (t : FileTree) (place : Place) : List String → Except PathFault Place
  | [] => .ok place
  | name :: names =>
    if t.get? place ≠ some .directory then .error .notDirectory
    else if name = "" ∨ name = "." then t.descend place names
    else if name = ".." then t.descend place.dropLast names
    else if maxName < name.utf8ByteSize then .error .nameTooLong
    else if (t.get? (place ++ [name])).isNone then .error .missing
    else t.descend (place ++ [name]) names

/-- The place that a path names, seen from a directory. -/
def walk (t : FileTree) (dir path : String) : Except PathFault Place :=
  if path.contains '\x00' then .error .nul
  else if path = "" then .error .missing
  else if maxPath ≤ path.utf8ByteSize then .error .nameTooLong
  else
    let start := if Path.isAbsolute path then [] else Path.parts dir
    t.descend start (Path.names path)

/-- What a path names. -/
def find? (t : FileTree) (dir path : String) : Option Entry :=
  match t.walk dir path with
  | .ok place => t.get? place
  | .error _ => none

/-- Whether a path names a file. -/
def isFile (t : FileTree) (dir path : String) : Bool :=
  match t.find? dir path with
  | some (.file ..) => true
  | some (.tool _) => true
  | _ => false

/-- Whether a path names a file that may be executed. -/
def isExecutable (t : FileTree) (dir path : String) : Bool :=
  match t.find? dir path with
  | some (.file _ executable) => executable
  | some (.tool _) => true
  | _ => false

/-- The bytes of the file that a path names. -/
def read (t : FileTree) (dir path : String) : Except PathFault Bytes :=
  match t.walk dir path with
  | .error fault => .error fault
  | .ok place =>
    match t.get? place with
    | some (.file data _) => .ok data
    | some (.tool _) => .ok []
    | some .directory => .error .isDirectory
    | none => .error .missing

/-- The text of the file that a path names. -/
def readText (t : FileTree) (dir path : String) : Except IoFault String :=
  match t.read dir path with
  | .error fault => .error fault.toIoFault
  | .ok data =>
    match Utf8.decode? data with
    | some text => .ok text
    | none => .error ⟨.invalidData, "stream did not contain valid UTF-8"⟩

/-- The place at which a path names something, or would if it were made; the directory above it
must be there. -/
def target? (t : FileTree) (dir path : String) : Option Place :=
  match t.walk dir path with
  | .ok place => some place
  | .error _ =>
    match (Path.parts path).getLast? with
    | none => none
    | some name =>
      let start := if Path.isAbsolute path then "/" else dir
      match t.walk dir ((Path.parts path).dropLast.foldl Path.join start) with
      | .ok place => if t.get? place = some .directory then some (place ++ [name]) else none
      | .error _ => none

/-- Makes all directories down to a place. -/
def putDirectories (t : FileTree) (place : Place) : FileTree :=
  ((List.range place.length).map fun n ↦ place.take (n + 1)).foldl
    (fun t p ↦ if (t.get? p).isSome then t else t.put p .directory) t

/-- Puts a file at a place and makes the directories above it. -/
def putFile (t : FileTree) (place : Place) (data : Bytes) (executable : Bool) : FileTree :=
  (t.putDirectories place.dropLast).put place (.file data executable)

/-- The directories that hold the system's programs. -/
def toolDirectories : List Place := [["bin"], ["usr", "bin"]]

/-- A tree with nothing but the system's programs. -/
def system : FileTree :=
  toolDirectories.foldl
    (fun t dir ↦ Tool.all.foldl (fun t tool ↦ t.put (dir ++ [tool.name]) (.tool tool))
      (t.putDirectories dir)) ⟨[]⟩

end FileTree
end Sidecar
