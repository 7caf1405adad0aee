import Sidecar.Config.Program
import Sidecar.Supervisor.Step

/-!
# Creating a supervisor

A supervisor is created with a live child in its slot. Nobody else works on it until it is there,
so its creation is one function of what the system decides on the way. Where it fails, what is left
behind is given too: every child spawned on the way has been reaped.
-/

namespace Sidecar.Supervisor

/-- A supervisor without a child. -/
def initial (config : Config) : Supervisor where
  config
  lock := none
  handle := none
  lifecycle := .starting
  isClosed := false
  closeNotice := false
  generation := 0
  restarts := 0
  children := .empty
  strays := []
  warden := .looking
  callers := .empty
  cells := .empty

/-- The program to run for a configuration, which must be one that can work. -/
def program (config : Config) (env : Environment) : Except Failure String := do
  config.validate
  config.resolveProgram env

/-- Takes the only child out of the slot again, as nobody will watch it. -/
def dissolve (s : Supervisor) : Supervisor :=
  let s := { s with isClosed := true }
  match s.handle with
  | some g => (s.emptySlot .closed).reap g
  | none => s

/-- Creates a supervisor, given what spawning a child, its decoders and the warden comes to. -/
def create (config : Config) (launch : Launch) (equip : Equip) (wardenFault : Option IoFault) :
    Except (Failure × Supervisor) Supervisor :=
  match (initial config).launchChild false launch with
  | (.error failure, s) => .error (failure, s)
  | (.ok (.equipping g), s) =>
    match s.equipChild g equip, wardenFault with
    | (none, s), none => .ok s
    | (none, s), some cause => .error (.io cause, s.dissolve)
    | (some start, s), _ =>
      match s.abandon start with
      | some result => .error result
      | none => .ok s
  | (.ok start, s) =>
    match s.abandon start with
    | some result => .error result
    | none => .ok s

/-- Creates a supervisor for a configuration. The program is looked for before anything is spawned.
Where the creation fails, what is left behind is given too. -/
def establish (config : Config) (env : Environment) (launch : Launch) (equip : Equip)
    (wardenFault : Option IoFault) : Except (Failure × Supervisor) Supervisor :=
  match program config env with
  | .error failure => .error (failure, initial config)
  | .ok _ => create config launch equip wardenFault

end Sidecar.Supervisor
