/-!
# The command language

Words and commands of a command language, as they stand in a script. A script is a list of bytes;
a byte is held as the character with its number, so that scripts can be matched by characters.
-/

namespace Sidecar.Shell

/-- Bytes, each as the character with its number. -/
abbrev Text := List Char

/-- What is done to the value of a parameter. -/
inductive Edit where
  /-- A word stands in for a missing value. -/
  | default
  /-- A word stands in for a missing value and becomes the value. -/
  | assign
  /-- A missing value ends the script with a word as its message. -/
  | complain
  /-- A word stands in for a value that is there. -/
  | alternative
  /-- A match of a pattern is cut off at the front, the shortest or the longest. -/
  | dropPrefix (longest : Bool)
  /-- A match of a pattern is cut off at the end, the shortest or the longest. -/
  | dropSuffix (longest : Bool)
  deriving DecidableEq, Repr

/-- Whether the word of an edit is a pattern; quotes around the parameter do not reach into it. -/
def Edit.takesPattern : Edit → Bool
  | .dropPrefix _ => true
  | .dropSuffix _ => true
  | _ => false

/-- A part of a word; each knows whether it stands in quotes. -/
inductive Part where
  | text (s : Text) (quoted : Bool)
  /-- The value of a parameter. -/
  | parameter (name : Text) (quoted : Bool)
  /-- The length of the value of a parameter. -/
  | length (name : Text) (quoted : Bool)
  /-- The edited value of a parameter; whether an empty value counts as missing. -/
  | edit (name : Text) (how : Edit) (colon : Bool) (word : List Part) (quoted : Bool)
  /-- The value of an expression. -/
  | arithmetic (expression : List Part) (quoted : Bool)
  /-- The output of a script. -/
  | output (script : Text) (quoted : Bool)
  deriving Repr

/-- A word before it is expanded. -/
abbrev Word := List Part

/-- The text of a word that stands as it is, without quotes. -/
def literal? : Word → Option Text
  | [] => some []
  | .text s false :: rest => (literal? rest).map (s ++ ·)
  | _ => none

/-- What a redirection does to a descriptor. -/
inductive Direction where
  | read
  | write
  | append
  /-- Makes it another name of a descriptor, or closes it. -/
  | duplicate
  deriving DecidableEq, Repr

/-- A redirection of a descriptor. -/
structure Redirection where
  descriptor : Nat
  direction : Direction
  target : Word
  deriving Repr

/-- A command. -/
inductive Command where
  /-- Does nothing. -/
  | nothing
  /-- Assignments, words and redirections, with the line on which they stand. -/
  | simple (line : Nat) (assignments : List (Text × Word)) (words : List Word)
      (redirections : List Redirection)
  /-- Commands of which each reads what the one before it writes. -/
  | pipeline (stages : List Command)
  /-- A command with its result turned around. -/
  | negation (c : Command)
  /-- Two commands, the second only if the first succeeds. -/
  | both (first second : Command)
  /-- Two commands, the second only if the first fails. -/
  | either (first second : Command)
  | sequence (first second : Command)
  /-- A command that is not waited for. -/
  | background (c : Command)
  | branch (condition yes no : Command)
  /-- A command that is repeated while, or until, a condition succeeds. -/
  | loop (isUntil : Bool) (condition body : Command)
  /-- A command that is repeated for each of some words, or for the arguments. -/
  | each (name : Text) (words : Option (List Word)) (body : Command)
  /-- The first command with a pattern that a word matches. -/
  | select (subject : Word) (arms : List (List Word × Command))
  /-- A command in a process of its own. -/
  | subshell (c : Command)
  /-- A command under redirections. -/
  | redirected (c : Command) (redirections : List Redirection)
  /-- Gives a name to a command. -/
  | define (name : Text) (body : Command)
  deriving Repr, Inhabited

end Sidecar.Shell
