import Sidecar.CommandLine.Argument
import Sidecar.Config

/-!
# Commands of a command line

A command line asks for the version, for help, for messages to be run through a child, or for a
configuration to be checked. Anything else is a usage error. An option may be given once, except
that selections of parts add up.
-/

namespace Sidecar.CommandLine

/-- How to run messages through a child. -/
structure RunOptions where
  config : Option String := none
  input : Option String := none
  batchSize : UInt64 := 1
  codecSend : Option Codec := none
  codecRecv : Option Codec := none
  parts : List Int64 := []
  maxBuffer : Option UInt64 := none
  /-- The longest wait for the end of the child, in seconds. -/
  closeTimeout : UInt64 := 5
  failsOnError : Bool := false
  command : List String := []
  deriving DecidableEq, Repr

/-- How to check a configuration. -/
structure CheckOptions where
  config : Option String := none
  asJson : Bool := false
  deriving DecidableEq, Repr

/-- What a command line asks for. -/
inductive Command where
  | version
  | help
  | run (options : RunOptions)
  | check (config : String) (asJson : Bool)
  deriving DecidableEq, Repr

/-- How reading a command line ends early. -/
inductive Stop where
  | usage
  | help
  | version
  deriving DecidableEq, Repr

/-- The options that every command takes. -/
def commonSwitches : List Switch :=
  [{ name := "verbose", letter := some 'v' }, { name := "help", letter := some 'h' }]

/-- The options before the command. -/
def topSwitches : List Switch :=
  { name := "version", letter := some 'V' } :: commonSwitches

/-- The options of a run. -/
def runSwitches : List Switch :=
  [{ name := "config", letter := some 'c', takesValue := true },
   { name := "input", letter := some 'i', takesValue := true },
   { name := "batch-size", letter := some 'b', takesValue := true },
   { name := "codec-send", takesValue := true },
   { name := "codec-recv", takesValue := true },
   { name := "parts", takesValue := true, takesNegative := true },
   { name := "max-buffer", takesValue := true },
   { name := "close-timeout", takesValue := true },
   { name := "fail-on-error" }] ++ commonSwitches

/-- The options of a check. -/
def checkSwitches : List Switch := { name := "json" } :: commonSwitches

/-- Takes a value that a text may denote. -/
def orUsage {α : Type} (value : Option α) : Except Stop α :=
  match value with
  | some a => .ok a
  | none => .error .usage

/-- A path, which is not empty. -/
def path? (text : String) : Option String := if text = "" then none else some text

/-- A codec by its name. -/
def codec? (text : String) : Option Codec := (Codec.ofId text).toOption

/-- Takes the value of an option of a run. -/
def RunOptions.setOption (o : RunOptions) (name value : String) : Except Stop RunOptions :=
  match name with
  | "config" => do .ok { o with config := ← orUsage (path? value) }
  | "input" => do .ok { o with input := ← orUsage (path? value) }
  | "batch-size" => do .ok { o with batchSize := ← orUsage (word? value) }
  | "codec-send" => do .ok { o with codecSend := ← orUsage (codec? value) }
  | "codec-recv" => do .ok { o with codecRecv := ← orUsage (codec? value) }
  | "parts" => do
    let parts ← orUsage ((value.splitOn ",").mapM signedWord?)
    .ok { o with parts := o.parts ++ parts }
  | "max-buffer" => do .ok { o with maxBuffer := ← orUsage (word? value) }
  | "close-timeout" => do .ok { o with closeTimeout := ← orUsage (word? value) }
  | _ => .error .usage

/-- Takes a flag of a run. -/
def RunOptions.setFlag (o : RunOptions) (name : String) : Except Stop RunOptions :=
  match name with
  | "fail-on-error" => .ok { o with failsOnError := true }
  | "help" => .error .help
  | "verbose" => .ok o
  | _ => .error .usage

/-- Takes the items of a run, given the names of those that came before. -/
def RunOptions.take (o : RunOptions) (given : List String) : List Item → Except Stop RunOptions
  | [] => .ok o
  | .flag name :: items => do
    if given.contains name then .error .usage
    else (← o.setFlag name).take (name :: given) items
  | .option name value :: items => do
    if given.contains name ∧ name ≠ "parts" then .error .usage
    else (← o.setOption name value).take (name :: given) items
  | .rest arguments :: items => { o with command := arguments }.take given items
  | .positional _ :: _ => .error .usage
  | .unexpected :: _ => .error .usage

/-- Takes a path of a check, which wants one. -/
def CheckOptions.setConfig (o : CheckOptions) (text : String) : Except Stop CheckOptions :=
  if o.config.isSome then .error .usage
  else do .ok { o with config := some (← orUsage (path? text)) }

/-- Takes the items of a check, given the names of those that came before. -/
def CheckOptions.take (o : CheckOptions) (given : List String) :
    List Item → Except Stop CheckOptions
  | [] => .ok o
  | .flag name :: items =>
    if given.contains name then .error .usage
    else
      match name with
      | "json" => { o with asJson := true }.take (name :: given) items
      | "help" => .error .help
      | _ => o.take (name :: given) items
  | .option .. :: _ => .error .usage
  | .positional text :: items => do (← o.setConfig text).take given items
  | .rest arguments :: items => do (← arguments.foldlM setConfig o).take given items
  | .unexpected :: _ => .error .usage

/-- Reads the arguments of a command. -/
def readCommand (name : String) (arguments : List String) : Except Stop Command :=
  match name with
  | "run" => .run <$> RunOptions.take {} [] (items runSwitches arguments)
  | "check" => do
    let o ← CheckOptions.take {} [] (items checkSwitches arguments)
    match o.config with
    | some config => .ok (.check config o.asJson)
    | none => .error .usage
  | "help" => .error .help
  | _ => .error .usage

/-- Reads the flags of an argument before the command; whether more arguments follow. -/
def readFlags (given : List String) : List Item → Except Stop (List String)
  | [] => .ok given
  | .flag name :: items =>
    if given.contains name then .error .usage
    else if name = "version" then .error .version
    else if name = "help" then .error .help
    else readFlags (name :: given) items
  | _ => .error .usage

/-- Reads a command line, given the flags that came before. -/
def readTop (given : List String) : List String → Except Stop Command
  | [] => .error .usage
  | argument :: arguments =>
    if argument.startsWith "-" ∧ argument ≠ "-" then do
      readTop (← readFlags given (items topSwitches [argument])) arguments
    else readCommand argument arguments

/-- What a command line asks for; none is a usage error. -/
def Command.ofArguments? (arguments : List String) : Option Command :=
  match readTop [] arguments with
  | .ok c => some c
  | .error .version => some .version
  | .error .help => some .help
  | .error .usage => none

end Sidecar.CommandLine
