import Sidecar.World.Builtin

/-!
# Steps of scripts

A step of a script expands the words of a command, runs it, or goes on with what it was doing. It
is possible unless the script waits for another process or for room in a pipe.
-/

namespace Sidecar.World

open Shell (Text Word Command Context Variables Redirection ExpansionFault)

namespace Turn

/-- Ends the script because words cannot be expanded. -/
def breakOff (t : Turn) (line : Nat) (fault : ExpansionFault) : Turn :=
  t.leave (t.complaint line fault.message.toList) 2

/-- Expands the targets of redirections. -/
def expandTargets : Context → List Text → List Redirection →
    Except ExpansionFault (Context × List Text × List Redirect)
  | ctx, outputs, [] => .ok (ctx, outputs, [])
  | ctx, outputs, r :: rest => do
    let (ctx, outputs, atoms) ← Shell.expandParts Shell.wordFuel ctx outputs r.target
    let (ctx, outputs, more) ← expandTargets ctx outputs rest
    .ok (ctx, outputs, ⟨r.descriptor, r.direction, Shell.atomText atoms⟩ :: more)

/-- Makes assignments one after the other. -/
def expandAssignments : Context → List Text → List (Text × Word) →
    Except ExpansionFault (Context × List Text)
  | ctx, outputs, [] => .ok (ctx, outputs)
  | ctx, outputs, (name, word) :: rest => do
    let (ctx, outputs, atoms) ← Shell.expandParts Shell.wordFuel ctx outputs word
    let bindings := ctx.bindings.set name (Shell.atomText atoms)
    expandAssignments { ctx with bindings } outputs rest

/-- Changes descriptors until a command ends. -/
def underRedirects (t : Turn) (line : Nat) (redirects : List Redirect) : Except Turn Turn :=
  if redirects = [] then .ok t
  else
    match redirect t.dir t.world t.descriptors redirects with
    | .error text => .error (t.fail line (textOfString text) 2)
    | .ok (descriptors, world) =>
      .ok (({ t with world }.push (.descriptors t.descriptors)).setDescriptors descriptors)

/-! ## Programs -/

/-- Loads a program for a script; a file that is no program is run as a script. -/
def loadProgram (t : Turn) (name : Text) (arguments : List Text) (environment : Variables) :
    Except (String × Nat) (Task × World) := do
  let path ← t.findProgram name
  match load interpreterDepth t.world path ⟨t.dir, environment, arguments⟩ with
  | .ok result => .ok result
  | .error .notProgram =>
    .ok (t.world.begin .sh ⟨t.dir, environment, textOfString path :: arguments⟩)
  | .error .denied => .error ("Permission denied", 126)
  | .error (.path _) => .error ("not found", 127)

/-- Runs a program, in the place of the script or in a process that the script waits for. -/
def runProgram (t : Turn) (line : Nat) (descriptors : Descriptors) (environment : Variables)
    (name : Text) (arguments : List Text) (replaces : Bool) : World :=
  match t.loadProgram name arguments environment with
  | .ok (task, world) =>
    if replaces then world.modify t.pid ({ · with descriptors, task })
    else
      let (pid, world) := world.add
        ⟨descriptors.erase captureDescriptor, t.dir, task, some t.pid, none⟩
      ({ t with world }.become (.await [pid] none)).done
  | .error (text, status) =>
    let message := t.complaint line (name ++ ": ".toList ++ text.toList)
    let t := { t with world := (t.world.write (descriptors.get? 2) message).2 }
    if replaces then (t.leave [] status).done else (t.finish status).done

/-! ## Simple commands -/

/-- The names and arguments of a command, without a word that hides functions; and whether there
was one. -/
def unveil (fields : List Text) : List Text × Bool :=
  match fields with
  | command :: name :: rest =>
    if command = "command".toList ∧ ¬ isOption name then (name :: rest, true) else (fields, false)
  | fields => (fields, false)

/-- Runs a command whose words have been expanded; the variables that it was given are put back
unless it is special. -/
def invoke (t : Turn) (line : Nat) (saved : List (Text × Option Text)) (fields : List Text)
    (redirects : List Redirect) : World :=
  let (fields, veiled) := unveil fields
  match fields with
  | [] =>
    match t.underRedirects line redirects with
    | .error t => t.done
    | .ok t => t.done
  | name :: arguments =>
    let shown := stringOfText name
    let temporarily (t : Turn) : Turn := if saved = [] then t else t.push (.bindings saved)
    match Builtin.special? shown with
    | some .adopt =>
      match redirect t.dir t.world t.descriptors redirects with
      | .error text => (t.leave (t.complaint line (textOfString text)) 2).done
      | .ok (descriptors, world) =>
        let t := { t with world }
        match arguments with
        | [] => ((t.setDescriptors descriptors).finish 0).done
        | name :: arguments => t.runProgram line descriptors t.environment name arguments true
    | some b =>
      match t.underRedirects line redirects with
      | .error t => (t.leave [] 2).done
      | .ok t => (t.builtin line b shown arguments).done
    | none =>
      match if veiled then none else t.machine.functions.get? name with
      | some body =>
        match (temporarily t).underRedirects line redirects with
        | .error t => t.done
        | .ok t =>
          let t := t.push (.call t.context.arguments)
          ((t.setContext { t.context with arguments }).run body).done
      | none =>
        match Builtin.ordinary? shown with
        | some b =>
          match (temporarily t).underRedirects line redirects with
          | .error t => t.done
          | .ok t => (t.builtin line b shown arguments).done
        | none =>
          let given := saved.filterMap fun (n, _) ↦ (t.context.bindings.get? n).map fun v ↦ (n, v)
          let environment := given.foldl (fun e (n, v) ↦ e.set n v) t.environment
          let last := t.isLast
          let t := saved.foldl (fun t (n, v) ↦ t.setVariable n v) t
          match redirect t.dir t.world t.descriptors redirects with
          | .error text => (t.fail line (textOfString text) 2).done
          | .ok (descriptors, world) =>
            { t with world }.runProgram line descriptors environment name arguments last

/-- Runs a simple command, given the outputs of the scripts in its words. -/
def runSimple (t : Turn) (line : Nat) (assignments : List (Text × Word)) (words : List Word)
    (redirections : List Redirection) (outputs : List Text) : World :=
  let before := t.context.bindings
  let status := if outputs = [] then 0 else t.context.status
  let expanded : Except ExpansionFault (Context × List Text × List Redirect) := do
    let (ctx, outputs, fields) ← Shell.expandWords t.context outputs words
    let (ctx, outputs, redirects) ← expandTargets ctx outputs redirections
    let (ctx, _) ← expandAssignments ctx outputs assignments
    .ok (ctx, fields, redirects)
  match expanded with
  | .error fault => (t.breakOff line fault).done
  | .ok (ctx, fields, redirects) =>
    let t := t.setContext ctx
    let saved := assignments.map fun (name, _) ↦ (name, before.get? name)
    if fields = [] then (t.finish status).invoke line [] [] redirects
    else t.invoke line saved fields redirects

/-! ## All commands -/

/-- The scripts whose outputs the words of a command need. -/
def scriptsIn : Command → List Text
  | .simple _ assignments words redirections =>
    words.flatMap (Shell.scriptsOf Shell.wordFuel) ++
      redirections.flatMap (fun r ↦ Shell.scriptsOf Shell.wordFuel r.target) ++
      assignments.flatMap fun a ↦ Shell.scriptsOf Shell.wordFuel a.2
  | .select subject _ => Shell.scriptsOf Shell.wordFuel subject
  | .each _ (some words) _ => words.flatMap (Shell.scriptsOf Shell.wordFuel)
  | .redirected _ redirections =>
    redirections.flatMap fun r ↦ Shell.scriptsOf Shell.wordFuel r.target
  | _ => []

/-- The body of the first arm with a pattern that matches. -/
def selectArm (ctx : Context) (subject : Text) : List (List Word × Command) →
    Except ExpansionFault (Option Command)
  | [] => .ok none
  | (patterns, body) :: rest => do
    let globs ← patterns.mapM fun p ↦ do
      let (_, _, atoms) ← Shell.expandParts Shell.wordFuel ctx [] p
      .ok (Shell.atomPattern atoms)
    if globs.any (Shell.globMatches · subject) then .ok (some body)
    else selectArm ctx subject rest

/-- Runs a command, given the outputs of the scripts in its words. -/
def execute (t : Turn) (c : Command) (outputs : List Text) : World :=
  match c with
  | .nothing => (t.finish 0).done
  | .simple line assignments words redirections =>
    t.runSimple line assignments words redirections outputs
  | .pipeline stages =>
    let (pids, t) := t.forkStages none stages
    (t.become (.await pids none)).done
  | .negation c => ((t.push .negate).run c).done
  | .both first second => ((t.push (.both second)).run first).done
  | .either first second => ((t.push (.either second)).run first).done
  | .sequence first second => ((t.push (.sequence second)).run first).done
  | .background c =>
    let (pid, t) := t.fork (t.descriptors.set 0 .null) (.run c)
    ((t.setContext { t.context with lastBackground := some pid }).finish 0).done
  | .branch condition yes no => ((t.push (.branch yes no)).run condition).done
  | .loop isUntil condition body =>
    ((t.push (.condition isUntil condition body 0)).run condition).done
  | .each name none body =>
    ((t.finish 0).push (.each name t.context.arguments body)).done
  | .each name (some words) body =>
    match Shell.expandWords t.context outputs words with
    | .error fault => (t.breakOff 1 fault).done
    | .ok (ctx, _, values) =>
      (((t.setContext ctx).finish 0).push (.each name values body)).done
  | .select subject arms =>
    match Shell.expandParts Shell.wordFuel t.context outputs subject with
    | .error fault => (t.breakOff 1 fault).done
    | .ok (ctx, _, atoms) =>
      let t := t.setContext ctx
      match selectArm ctx (Shell.atomText atoms) arms with
      | .error fault => (t.breakOff 1 fault).done
      | .ok (some body) => (t.run body).done
      | .ok none => (t.finish 0).done
  | .subshell c =>
    if t.isLast then (t.run c).done
    else
      let (pid, t) := t.fork t.descriptors (.run c)
      (t.become (.await [pid] none)).done
  | .redirected c redirections =>
    match expandTargets t.context outputs redirections with
    | .error fault => (t.breakOff 1 fault).done
    | .ok (ctx, _, redirects) =>
      match (t.setContext ctx).underRedirects 1 redirects with
      | .error t => t.done
      | .ok t => (t.run c).done
  | .define name body =>
    let functions := t.machine.functions.set name body
    ({ t with machine := { t.machine with functions } }.finish 0).done

/-- Begins a command: the scripts in its words come first. -/
def start (t : Turn) (c : Command) : World :=
  match scriptsIn c with
  | [] => t.execute c []
  | scripts => (t.become (.gather c scripts [])).done

/-- Runs the next script whose output is needed, or else the command. -/
def gather (t : Turn) (c : Command) (scripts outputs : List Text) : World :=
  match scripts with
  | [] => t.execute c outputs.reverse
  | script :: rest =>
    let (pipe, world) := t.world.makePipe
    let t := { t with world }
    let (pid, t) := t.fork (t.descriptors.set 1 (.pipeWriter pipe)) (t.beginning script)
    let t := t.setDescriptors (t.descriptors.set captureDescriptor (.pipeReader pipe))
    (t.become (.capture c rest outputs pid pipe [])).done

/-- Reads from the output of a script, and takes its status when it has ended. -/
def capture (t : Turn) (c : Command) (scripts outputs : List Text) (pid : Pid) (pipe : PipeId)
    (soFar : Bytes) : Option World :=
  match t.world.read (some (.pipeReader pipe)) with
  | (.bytes b, world) =>
    some ({ t with world }.become (.capture c scripts outputs pid pipe (soFar ++ b))).done
  | (.ended, _) =>
    match t.world.processes.get? pid with
    | some p =>
      match p.status with
      | none => none
      | some status =>
        let t := { t with world := t.world.forget pid }
        let t := t.setDescriptors (t.descriptors.erase captureDescriptor)
        let text := textOfBytes (soFar.filter (· ≠ 0))
        some ((t.setStatus status).become (.gather c scripts (text :: outputs))).done
    | none => some (t.become (.gather c scripts (textOfBytes soFar :: outputs))).done
  | _ => none

/-! ## Reading lines -/

/-- Takes the characters of a line from what was read: what the line has come to, whether a
backslash stands before the next character, and what is left over if the line is complete. -/
def takeLine (raw : Bool) : Text → Bool → Bytes → Text × Bool × Option Bytes
  | line, escaped, [] => (line, escaped, none)
  | line, escaped, b :: rest =>
    let c := Char.ofNat b.toNat
    if b = 0 then takeLine raw line escaped rest
    else if escaped then
      if c = '\n' then takeLine raw line false rest else takeLine raw (c :: line) false rest
    else if c = '\\' ∧ !raw then takeLine raw line true rest
    else if c = '\n' then (line, false, some rest)
    else takeLine raw (c :: line) false rest

/-- Sets variables to the fields of a line, whose characters are given latest first. -/
def assignLine (t : Turn) (names : List Text) (line : Text) : Turn :=
  let fields := Shell.splitLine t.context.separators names.length line.reverse
  (names.zip fields).foldl (fun t (name, value) ↦ t.setVariable name (some value)) t

/-- Reads a line into variables. -/
def readLine (t : Turn) (raw : Bool) (names : List Text) (line : Text) (escaped : Bool) :
    Option World :=
  let input := t.world.handle t.pid 0
  match t.world.read input with
  | (.bytes b, world) =>
    match takeLine raw line escaped b with
    | (line, _, some rest) =>
      some ((({ t with world := world.unread input rest }).assignLine names line).finish 0).done
    | (line, escaped, none) =>
      some ({ t with world }.become (.readLine raw names line escaped)).done
  | (.ended, world) => some (({ t with world }.assignLine names line).finish 1).done
  | (.pending, _) => none
  | (.unreadable, _) => some (t.fail 1 "read error: 0: Bad file descriptor".toList 1).done

/-- Reads commands from the input up to the end of a line at which they are complete. -/
def readScript (t : Turn) (text : Text) : Option World :=
  let input := t.world.handle t.pid 0
  match t.world.read input with
  | (.bytes b, world) =>
    match takeLine true text.reverse false b with
    | (line, _, none) => some ({ t with world }.become (.readScript line.reverse)).done
    | (line, _, some rest) =>
      let text := line.reverse ++ ['\n']
      let t := { t with world := world.unread input rest }
      match Command.ofScript? text with
      | some c => some ((t.push .script).run c).done
      | none => some (t.become (.readScript text)).done
  | (.ended, world) =>
    let t := { t with world }
    if text = [] then some (t.world.exit t.pid t.context.status)
    else
      match Command.ofScript? text with
      | some c => some ((t.push .script).run c).done
      | none => some (t.leave (t.complaint 1 "Syntax error: end of file unexpected".toList) 2).done
  | (.pending, _) => none
  | (.unreadable, _) => some (t.world.exit t.pid t.context.status)

/-! ## Steps -/

/-- Waits for the first of some processes. -/
def await (t : Turn) (pids : List Pid) (status : Option Nat) : Option World :=
  match pids with
  | [] => some (t.finish (status.getD t.context.status)).done
  | pid :: rest =>
    match t.world.processes.get? pid with
    | none => some ((t.setStatus 127).become (.await rest status)).done
    | some p =>
      p.status.map fun s ↦
        (({ t with world := t.world.forget pid }.setStatus s).become (.await rest status)).done

/-- Writes to the output of a command. -/
def write (t : Turn) (bytes : Bytes) (status : Nat) (complaint : Bytes) : Option World :=
  if bytes = [] then some (t.finish status).done
  else
    match t.world.write (t.world.handle t.pid 1) bytes with
    | (.taken n, world) =>
      some ({ t with world }.become (.write (bytes.drop n) status complaint)).done
    | (.pending, _) => none
    | (.broken, world) => some (world.exit t.pid (signalStatus sigpipe))
    | (.unwritable, world) =>
      some ({ t with world := world.complain t.pid complaint }.finish 1).done

/-- A step of a script. -/
def step (t : Turn) : Option World :=
  match t.machine.activity with
  | .run c => some (t.start c)
  | .gather c scripts outputs => some (t.gather c scripts outputs)
  | .capture c scripts outputs pid pipe soFar => t.capture c scripts outputs pid pipe soFar
  | .ended => some t.resume
  | .write bytes status complaint => t.write bytes status complaint
  | .readLine raw names line escaped => t.readLine raw names line escaped
  | .await pids status => t.await pids status
  | .readScript text => t.readScript text
  | .exit message status => some ((t.world.complain t.pid message).exit t.pid status)

end Turn

/-- A step of a process; none if it has ended or waits for something. -/
def step (w : World) (pid : Pid) : Option World :=
  match w.processes.get? pid with
  | none => none
  | some p =>
    if p.status.isSome then none
    else
      match p.task with
      | .copy pending sources status => w.stepCopy pid p.dir pending sources status
      | .recode pending held f ended => w.stepRecode pid pending held f ended
      | .sleep deadline => w.stepSleep pid deadline
      | .print message status => some ((w.complain pid message).exit pid status)
      | .script m =>
        let context := if m.context.pid = 0 then { m.context with pid } else m.context
        Turn.step ⟨w, pid, { m with context }⟩

end Sidecar.World
