import Sidecar.Shell.Syntax

/-!
# Reading scripts

A script is read by recursive descent, straight from its characters. Every function that reads is
given a number that bounds how deep it may go; `Command.ofScript?` starts with a number that no
script can use up.
-/

namespace Sidecar.Shell

/-- Whether a character may begin a name. -/
def isNameStart (c : Char) : Bool := c.isAlpha || c = '_'

/-- Whether a character may stand in a name. -/
def isNameChar (c : Char) : Bool := c.isAlphanum || c = '_'

/-- Whether a character ends a word. -/
def isBoundary (c : Char) : Bool :=
  [' ', '\t', '\n', ';', '&', '|', '<', '>', '(', ')'].contains c

/-- The text after blanks, continued lines and a comment. -/
def skipBlanks : Text → Text
  | ' ' :: cs => skipBlanks cs
  | '\t' :: cs => skipBlanks cs
  | '\\' :: '\n' :: cs => skipBlanks cs
  | '#' :: cs => cs.dropWhile (· ≠ '\n')
  | cs => cs

/-- The text after blanks, comments and line ends. -/
def skipLines : Nat → Text → Text
  | 0, cs => cs
  | fuel + 1, cs =>
    match skipBlanks cs with
    | '\n' :: cs => skipLines fuel cs
    | cs => cs

/-- Where parts of a word are read. -/
inductive Mode where
  /-- A word by itself. -/
  | bare
  /-- Between double quotes. -/
  | double
  /-- Up to a closing brace, and whether the brace stands between double quotes. -/
  | brace (quoted : Bool)
  /-- An expression, to the end of the text. -/
  | expression
  deriving DecidableEq

namespace Mode

/-- Whether what is read counts as quoted. -/
def isQuoted : Mode → Bool
  | .double => true
  | .expression => true
  | .brace quoted => quoted
  | .bare => false

/-- Whether a character ends the parts. -/
def stopsAt (mode : Mode) (c : Char) : Bool :=
  match mode with
  | .bare => isBoundary c
  | .double => c = '"'
  | .brace _ => c = '}'
  | .expression => false

/-- Whether the parts may go to the end of the text. -/
def mayEnd : Mode → Bool
  | .bare => true
  | .expression => true
  | _ => false

/-- What a backslash with a character after it denotes. -/
def escaped (mode : Mode) (c : Char) : Part :=
  if mode.isQuoted then
    if ['$', '\x60', '"', '\\', '}'].contains c ∧ (c ≠ '}' ∨ mode = .brace true) then
      .text [c] true
    else .text ['\\', c] true
  else .text [c] true

end Mode

/-- The inside of parentheses and the text after them, given how many are open and the quote in
which the text begins. -/
def insideParens : Nat → Option Char → Text → Option (Text × Text)
  | _, _, [] => none
  | depth, quote, '\\' :: c :: cs =>
    if quote = some '\'' then
      if c = '\'' then (insideParens depth none cs).map fun (s, r) ↦ ('\\' :: c :: s, r)
      else (insideParens depth quote cs).map fun (s, r) ↦ ('\\' :: c :: s, r)
    else (insideParens depth quote cs).map fun (s, r) ↦ ('\\' :: c :: s, r)
  | depth, some q, c :: cs =>
    (insideParens depth (if c = q then none else some q) cs).map fun (s, r) ↦ (c :: s, r)
  | depth, none, c :: cs =>
    if c = ')' ∧ depth = 0 then some ([], cs)
    else
      let depth := if c = '(' then depth + 1 else if c = ')' then depth - 1 else depth
      let quote := if c = '\'' ∨ c = '"' then some c else none
      (insideParens depth quote cs).map fun (s, r) ↦ (c :: s, r)

/-- The inside of backquotes, with its backslashes taken off, and the text after them. -/
def insideBackquotes : Text → Option (Text × Text)
  | [] => none
  | '\\' :: c :: cs =>
    let kept := if ['$', '\x60', '\\'].contains c then [c] else ['\\', c]
    (insideBackquotes cs).map fun (s, r) ↦ (kept ++ s, r)
  | c :: cs =>
    if c = '\x60' then some ([], cs) else (insideBackquotes cs).map fun (s, r) ↦ (c :: s, r)

/-- A parameter that is not a name, by its first character. -/
def isSpecial (c : Char) : Bool := c.isDigit || ['*', '@', '#', '?', '-', '$', '!'].contains c

/-- Reads the name of a parameter. -/
def readParameter : Text → Option (Text × Text)
  | [] => none
  | c :: cs =>
    if isNameStart c then some ((c :: cs).takeWhile isNameChar, (c :: cs).dropWhile isNameChar)
    else if c.isDigit then some ((c :: cs).takeWhile Char.isDigit, (c :: cs).dropWhile Char.isDigit)
    else if isSpecial c then some ([c], cs)
    else none

/-- Reads what is done to a parameter in braces, without the colon before it. -/
def readEdit : Text → Option (Edit × Text)
  | '-' :: cs => some (.default, cs)
  | '=' :: cs => some (.assign, cs)
  | '?' :: cs => some (.complain, cs)
  | '+' :: cs => some (.alternative, cs)
  | '#' :: '#' :: cs => some (.dropPrefix true, cs)
  | '#' :: cs => some (.dropPrefix false, cs)
  | '%' :: '%' :: cs => some (.dropSuffix true, cs)
  | '%' :: cs => some (.dropSuffix false, cs)
  | _ => none

mutual

/-- Reads parts of a word up to where they stop; what stops them is left over. -/
def readParts : Nat → Mode → Text → Option (Word × Text)
  | 0, _, _ => none
  | fuel + 1, mode, cs =>
    match cs with
    | [] => if mode.mayEnd then some ([], []) else none
    | c :: rest =>
      if mode.stopsAt c then some ([], c :: rest)
      else
        let next (part : Part) (rest : Text) :=
          (readParts fuel mode rest).map fun (parts, rest) ↦ (part :: parts, rest)
        match c, rest with
        | '\\', '\n' :: rest => readParts fuel mode rest
        | '\\', d :: rest => next (mode.escaped d) rest
        | '$', rest => do
          let (part, rest) ← readDollar fuel mode.isQuoted rest
          next part rest
        | '\x60', rest => do
          let (script, rest) ← insideBackquotes rest
          next (.output script mode.isQuoted) rest
        | '\'', rest =>
          if mode.isQuoted then next (.text ['\''] true) rest
          else
            match rest.dropWhile (· ≠ '\'') with
            | _ :: after => next (.text (rest.takeWhile (· ≠ '\'')) true) after
            | [] => none
        | '"', rest =>
          if mode.isQuoted then next (.text ['"'] true) rest
          else do
            let (inner, rest) ← readParts fuel .double rest
            let (parts, rest) ← readParts fuel mode (rest.drop 1)
            some (.text [] true :: inner ++ parts, rest)
        | c, rest => next (.text [c] mode.isQuoted) rest

/-- Reads what follows a dollar sign. -/
def readDollar : Nat → Bool → Text → Option (Part × Text)
  | 0, _, _ => none
  | fuel + 1, quoted, cs =>
    match cs with
    | '(' :: cs => do
      let (inner, rest) ← insideParens 0 none cs
      match inner, inner.getLast? with
      | '(' :: expression, some ')' =>
        let (word, _) ← readParts fuel .expression expression.dropLast
        some (.arithmetic word quoted, rest)
      | _, _ => some (.output inner quoted, rest)
    | '{' :: cs => readBraced fuel quoted cs
    | cs =>
      match cs, readParameter cs with
      | c :: rest, some (name, after) =>
        if c.isDigit then some (.parameter [c] quoted, rest)
        else some (.parameter name quoted, after)
      | _, _ => some (.text ['$'] quoted, cs)

/-- Reads a parameter in braces, after the opening brace. -/
def readBraced : Nat → Bool → Text → Option (Part × Text)
  | 0, _, _ => none
  | fuel + 1, quoted, cs =>
    let plain : Option (Part × Text) := do
      let (name, rest) ← readParameter cs
      match rest with
      | '}' :: rest => some (.parameter name quoted, rest)
      | _ => do
        let (colon, rest) := match rest with
          | ':' :: rest => (true, rest)
          | rest => (false, rest)
        let (how, rest) ← readEdit rest
        let (word, rest) ← readParts fuel (.brace (quoted && !how.takesPattern)) rest
        some (.edit name how colon word quoted, rest.drop 1)
    match cs with
    | '#' :: '}' :: rest => some (.parameter ['#'] quoted, rest)
    | '#' :: cs =>
      match readParameter cs with
      | some (name, '}' :: rest) => some (.length name quoted, rest)
      | _ => plain
    | _ => plain

end

/-- Reads a word, if one begins here. -/
def readWord (fuel : Nat) (cs : Text) : Option (Word × Text) := do
  let (word, rest) ← readParts fuel .bare cs
  if word.isEmpty then none else some (word, rest)

/-- Reads a redirection, if one begins here. -/
def readRedirection (fuel : Nat) (cs : Text) : Option (Redirection × Text) := do
  let digits := cs.takeWhile Char.isDigit
  let number := if digits = [] then none
    else some (digits.foldl (fun n d ↦ 10 * n + (d.toNat - '0'.toNat)) 0)
  let make (default : Nat) (direction : Direction) (rest : Text) := do
    let (target, rest) ← readWord fuel (skipBlanks rest)
    some (⟨number.getD default, direction, target⟩, rest)
  match cs.dropWhile Char.isDigit with
  | '>' :: '>' :: rest => make 1 .append rest
  | '>' :: '&' :: rest => make 1 .duplicate rest
  | '>' :: '|' :: rest => make 1 .write rest
  | '>' :: rest => make 1 .write rest
  | '<' :: '<' :: _ => none
  | '<' :: '&' :: rest => make 0 .duplicate rest
  | '<' :: rest => make 0 .read rest
  | _ => none

/-- Reads redirections for as long as there are any. -/
def readRedirections : Nat → Text → List Redirection × Text
  | 0, cs => ([], cs)
  | fuel + 1, cs =>
    match readRedirection fuel (skipBlanks cs) with
    | none => ([], cs)
    | some (r, rest) =>
      let (rs, rest) := readRedirections fuel rest
      (r :: rs, rest)

/-- The text after a reserved word, if it begins here. -/
def afterReserved? (word : String) (cs : Text) : Option Text :=
  let w := word.toList
  if w.isPrefixOf cs then
    match cs.drop w.length with
    | [] => some []
    | c :: rest => if isBoundary c then some (c :: rest) else none
  else none

/-- The words that end a list of commands. -/
def closers : List String := ["then", "do", "done", "fi", "else", "elif", "esac", "\x7d"]

/-- Whether a list of commands ends here. -/
def isListEnd (cs : Text) : Bool :=
  match cs with
  | [] => true
  | ')' :: _ => true
  | ';' :: ';' :: _ => true
  | cs => closers.any fun w ↦ (afterReserved? w cs).isSome

/-- Reads an assignment, if one begins here. -/
def readAssignment (fuel : Nat) (cs : Text) : Option ((Text × Word) × Text) :=
  match cs with
  | c :: _ =>
    if isNameStart c then
      match cs.dropWhile isNameChar with
      | '=' :: rest =>
        (readParts fuel .bare rest).map fun (word, rest) ↦ ((cs.takeWhile isNameChar, word), rest)
      | _ => none
    else none
  | [] => none

/-- What has been read of a simple command, each list latest first. -/
structure SimpleDraft where
  assignments : List (Text × Word) := []
  words : List Word := []
  redirections : List Redirection := []

/-- Reads the items of a simple command. -/
def readSimple : Nat → SimpleDraft → Text → Option (SimpleDraft × Text)
  | 0, _, _ => none
  | fuel + 1, d, cs =>
    let cs := skipBlanks cs
    match readRedirection fuel cs with
    | some (r, rest) => readSimple fuel { d with redirections := r :: d.redirections } rest
    | none =>
      match if d.words.isEmpty then readAssignment fuel cs else none with
      | some (a, rest) => readSimple fuel { d with assignments := a :: d.assignments } rest
      | none =>
        match cs with
        | [] => some (d, [])
        | c :: _ =>
          if isBoundary c then some (d, cs)
          else do
            let (word, rest) ← readWord fuel cs
            readSimple fuel { d with words := word :: d.words } rest

/-- Reads words up to the end of a line or a semicolon. -/
def readWords : Nat → Text → Option (List Word × Text)
  | 0, _ => none
  | fuel + 1, cs =>
    match skipBlanks cs with
    | [] => some ([], [])
    | c :: rest =>
      if isBoundary c then some ([], c :: rest)
      else do
        let (word, rest) ← readWord fuel (c :: rest)
        let (words, rest) ← readWords fuel rest
        some (word :: words, rest)

/-- Reads patterns with bars between them, up to the closing parenthesis. -/
def readPatterns : Nat → Text → Option (List Word × Text)
  | 0, _ => none
  | fuel + 1, cs => do
    let (word, rest) ← readWord fuel (skipBlanks cs)
    match skipBlanks rest with
    | '|' :: rest => do
      let (words, rest) ← readPatterns fuel rest
      some (word :: words, rest)
    | ')' :: rest => some ([word], rest)
    | _ => none

/-- The text after a reserved word that must come next, after blanks and line ends. -/
def expect (word : String) (cs : Text) : Option Text :=
  afterReserved? word (skipLines cs.length cs)

mutual

/-- Reads commands up to where a list of them ends. The first number is the count of line ends in
the whole script. -/
def readList (lines : Nat) : Nat → Text → Option (Command × Text)
  | 0, _ => none
  | fuel + 1, cs =>
    let cs := skipLines cs.length cs
    if isListEnd cs then some (.nothing, cs)
    else do
      let (first, rest) ← readChain lines fuel cs
      let more (first : Command) (rest : Text) : Option (Command × Text) := do
        let (second, rest) ← readList lines fuel rest
        match second with
        | .nothing => some (first, rest)
        | second => some (.sequence first second, rest)
      match skipBlanks rest with
      | '&' :: rest => more (.background first) rest
      | ';' :: ';' :: rest => some (first, ';' :: ';' :: rest)
      | ';' :: rest => more first rest
      | '\n' :: rest => more first rest
      | rest => if isListEnd rest then some (first, rest) else none

/-- Reads pipelines that depend on each other. -/
def readChain (lines : Nat) : Nat → Text → Option (Command × Text)
  | 0, _ => none
  | fuel + 1, cs => do
    let (first, rest) ← readPipeline lines fuel cs
    readLinks lines fuel first rest

/-- Reads what depends on the commands read so far. -/
def readLinks (lines : Nat) : Nat → Command → Text → Option (Command × Text)
  | 0, _, _ => none
  | fuel + 1, first, cs =>
    match skipBlanks cs with
    | '&' :: '&' :: rest => do
      let (second, rest) ← readPipeline lines fuel (skipLines rest.length rest)
      readLinks lines fuel (.both first second) rest
    | '|' :: '|' :: rest => do
      let (second, rest) ← readPipeline lines fuel (skipLines rest.length rest)
      readLinks lines fuel (.either first second) rest
    | rest => some (first, rest)

/-- Reads commands with bars between them. -/
def readPipeline (lines : Nat) : Nat → Text → Option (Command × Text)
  | 0, _ => none
  | fuel + 1, cs =>
    match afterReserved? "!" (skipBlanks cs) with
    | some rest => (readPipeline lines fuel rest).map fun (c, rest) ↦ (.negation c, rest)
    | none => do
      let (stages, rest) ← readStages lines fuel cs
      match stages with
      | [c] => some (c, rest)
      | stages => some (.pipeline stages, rest)

/-- Reads the stages of a pipeline. -/
def readStages (lines : Nat) : Nat → Text → Option (List Command × Text)
  | 0, _ => none
  | fuel + 1, cs => do
    let (c, rest) ← readCommand lines fuel (skipBlanks cs)
    match skipBlanks rest with
    | '|' :: '|' :: rest => some ([c], '|' :: '|' :: rest)
    | '|' :: rest => do
      let (stages, rest) ← readStages lines fuel (skipLines rest.length rest)
      some (c :: stages, rest)
    | rest => some ([c], rest)

/-- Reads one command. -/
def readCommand (lines : Nat) : Nat → Text → Option (Command × Text)
  | 0, _ => none
  | fuel + 1, cs =>
    let redirected (c : Command) (rest : Text) : Option (Command × Text) :=
      match readRedirections fuel rest with
      | ([], rest) => some (c, rest)
      | (rs, rest) => some (.redirected c rs, rest)
    match afterReserved? "if" cs, afterReserved? "while" cs, afterReserved? "until" cs with
    | some rest, _, _ => do
      let (c, rest) ← readBranch lines fuel rest
      redirected c rest
    | none, some rest, _ => do
      let (c, rest) ← readLoop lines fuel false rest
      redirected c rest
    | none, none, some rest => do
      let (c, rest) ← readLoop lines fuel true rest
      redirected c rest
    | none, none, none =>
      match afterReserved? "for" cs, afterReserved? "case" cs, afterReserved? "\x7b" cs with
      | some rest, _, _ => do
        let (c, rest) ← readEach lines fuel rest
        redirected c rest
      | none, some rest, _ => do
        let (c, rest) ← readSelect lines fuel rest
        redirected c rest
      | none, none, some rest => do
        let (c, rest) ← readList lines fuel rest
        let rest ← expect "\x7d" rest
        redirected c rest
      | none, none, none =>
        match cs with
        | '(' :: rest => do
          let (c, rest) ← readList lines fuel rest
          match rest with
          | ')' :: rest => redirected (.subshell c) rest
          | _ => none
        | _ => do
          let line := lines - cs.count '\n' + 1
          let (d, rest) ← readSimple fuel {} cs
          match d.words, rest with
          | [word], '(' :: rest =>
            match literal? word, skipBlanks rest with
            | some name, ')' :: rest => do
              let (body, rest) ← readCommand lines fuel (skipLines rest.length rest)
              some (.define name body, rest)
            | _, _ => none
          | _, '(' :: _ => none
          | _, _ =>
            if d.words.isEmpty ∧ d.assignments.isEmpty ∧ d.redirections.isEmpty then none
            else
              some (.simple line d.assignments.reverse d.words.reverse d.redirections.reverse,
                rest)

/-- Reads a condition and its branches, after the first word. -/
def readBranch (lines : Nat) : Nat → Text → Option (Command × Text)
  | 0, _ => none
  | fuel + 1, cs => do
    let (condition, rest) ← readList lines fuel cs
    let (yes, rest) ← readList lines fuel (← expect "then" rest)
    match afterReserved? "elif" rest, afterReserved? "else" rest with
    | some rest, _ => do
      let (no, rest) ← readBranch lines fuel rest
      some (.branch condition yes no, rest)
    | none, some rest => do
      let (no, rest) ← readList lines fuel rest
      some (.branch condition yes no, ← expect "fi" rest)
    | none, none => some (.branch condition yes .nothing, ← expect "fi" rest)

/-- Reads a condition and the body of a loop, after the first word. -/
def readLoop (lines : Nat) : Nat → Bool → Text → Option (Command × Text)
  | 0, _, _ => none
  | fuel + 1, isUntil, cs => do
    let (condition, rest) ← readList lines fuel cs
    let (body, rest) ← readList lines fuel (← expect "do" rest)
    some (.loop isUntil condition body, ← expect "done" rest)

/-- Reads a loop over words, after the first word. -/
def readEach (lines : Nat) : Nat → Text → Option (Command × Text)
  | 0, _ => none
  | fuel + 1, cs => do
    let cs := skipBlanks cs
    let name := cs.takeWhile isNameChar
    let rest := cs.dropWhile isNameChar
    let (words, rest) ← match expect "in" rest with
      | some rest => do
        let (words, rest) ← readWords fuel rest
        some (some words, rest)
      | none => some (none, rest)
    let rest := match skipBlanks rest with
      | ';' :: rest => rest
      | rest => rest
    let (body, rest) ← readList lines fuel (← expect "do" rest)
    some (.each name words body, ← expect "done" rest)

/-- Reads a choice by patterns, after the first word. -/
def readSelect (lines : Nat) : Nat → Text → Option (Command × Text)
  | 0, _ => none
  | fuel + 1, cs => do
    let (subject, rest) ← readWord fuel (skipBlanks cs)
    let (arms, rest) ← readArms lines fuel (← expect "in" rest)
    some (.select subject arms, rest)

/-- Reads the arms of a choice, up to its last word. -/
def readArms (lines : Nat) : Nat → Text → Option (List (List Word × Command) × Text)
  | 0, _ => none
  | fuel + 1, cs =>
    let cs := skipLines cs.length cs
    match afterReserved? "esac" cs with
    | some rest => some ([], rest)
    | none => do
      let (patterns, rest) ← readPatterns fuel (match cs with
        | '(' :: rest => rest
        | cs => cs)
      let (body, rest) ← readList lines fuel rest
      match rest with
      | ';' :: ';' :: rest => do
        let (arms, rest) ← readArms lines fuel rest
        some ((patterns, body) :: arms, rest)
      | rest => some ([(patterns, body)], ← afterReserved? "esac" rest)

end

/-- The command that a script denotes, if it follows the grammar. -/
def Command.ofScript? (script : Text) : Option Command :=
  let fuel := 16 * (script.length + 4)
  match readList (script.count '\n') fuel script with
  | some (c, []) => some c
  | _ => none

end Sidecar.Shell
