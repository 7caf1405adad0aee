import Sidecar.World.Process

/-!
# What the system does for processes

Pipes hold a bounded number of bytes. A pipe without writers reads as ended, and a pipe without
readers is broken. A process that ends gives up its descriptors and is kept until it is waited for.
-/

namespace Sidecar.World

open Shell (Text)

/-- Bytes as characters. -/
def textOfBytes (b : Bytes) : Text := b.map fun x ↦ Char.ofNat x.toNat

/-- Characters as bytes. -/
def bytesOfText (s : Text) : Bytes := s.map fun c ↦ UInt8.ofNat c.toNat

/-- The bytes of a string as characters. -/
def textOfString (s : String) : Text := textOfBytes (Bytes.ofString s)

/-- Characters as the string of which they are the bytes. -/
def stringOfText (s : Text) : String := Utf8.decodeLossy (bytesOfText s)

/-- The most bytes in a pipe. -/
def pipeCapacity : Nat := 65536

/-- Changes a process. -/
def modify (w : World) (pid : Pid) (f : Process → Process) : World :=
  { w with processes := w.processes.modify pid f }

/-- Sets what a process is doing. -/
def setTask (w : World) (pid : Pid) (task : Task) : World := w.modify pid ({ · with task })

/-- Whether some process keeps something open. -/
def holds (w : World) (h : Handle) : Bool :=
  w.processes.values.any fun p ↦ p.status.isNone && p.handles.contains h

/-- Whether a pipe can still be written. -/
def hasWriter (w : World) (pipe : PipeId) : Bool :=
  w.outsideWriters.contains pipe || w.holds (.pipeWriter pipe)

/-- Whether a pipe can still be read. -/
def hasReader (w : World) (pipe : PipeId) : Bool :=
  w.outsideReaders.contains pipe || w.holds (.pipeReader pipe)

/-- The bytes in a pipe. -/
def pipeBytes (w : World) (pipe : PipeId) : Bytes := (w.pipes.get? pipe).getD []

/-- Makes a pipe. -/
def makePipe (w : World) : PipeId × World :=
  (w.next, { w with next := w.next + 1, pipes := w.pipes.set w.next [] })

/-- What a read comes to. -/
inductive Reading where
  | bytes (b : Bytes)
  | ended
  /-- Nothing is there yet. -/
  | pending
  /-- The descriptor cannot be read. -/
  | unreadable

/-- Reads all that a descriptor has to give at once. -/
def read (w : World) (h : Option Handle) : Reading × World :=
  match h with
  | some (.pipeReader pipe) =>
    match w.pipeBytes pipe with
    | [] => (if w.hasWriter pipe then .pending else .ended, w)
    | bytes => (.bytes bytes, { w with pipes := w.pipes.set pipe [] })
  | some (.fileReader opening) =>
    match (w.openings.get? opening).getD [] with
    | [] => (.ended, w)
    | bytes => (.bytes bytes, { w with openings := w.openings.set opening [] })
  | some .null => (.ended, w)
  | _ => (.unreadable, w)

/-- Puts bytes back that were read and are not wanted. -/
def unread (w : World) (h : Option Handle) (bytes : Bytes) : World :=
  match h with
  | some (.pipeReader pipe) => { w with pipes := w.pipes.set pipe bytes }
  | some (.fileReader opening) => { w with openings := w.openings.set opening bytes }
  | _ => w

/-- What a write comes to. -/
inductive Writing where
  /-- So many bytes were taken. -/
  | taken (n : Nat)
  /-- There is no room yet. -/
  | pending
  /-- Nobody will ever read. -/
  | broken
  /-- The descriptor cannot be written. -/
  | unwritable

/-- Writes to a pipe as many bytes as there is room for. -/
def writePipe (w : World) (pipe : PipeId) (bytes : Bytes) : Writing × World :=
  if !w.hasReader pipe then (.broken, w)
  else
    let held := w.pipeBytes pipe
    let room := pipeCapacity - held.length
    if room = 0 then (.pending, w)
    else
      (.taken (min room bytes.length),
        { w with pipes := w.pipes.set pipe (held ++ bytes.take room) })

/-- Writes as many bytes as there is room for. -/
def write (w : World) (h : Option Handle) (bytes : Bytes) : Writing × World :=
  match h with
  | some (.pipeWriter pipe) => w.writePipe pipe bytes
  | some (.fileWriter place) =>
    match w.files.get? place with
    | some (.file data executable) =>
      (.taken bytes.length,
        { w with files := w.files.put place (.file (data ++ bytes) executable) })
    | _ => (.taken bytes.length, w)
  | some .null => (.taken bytes.length, w)
  | _ => (.unwritable, w)

/-- The status of a process that was killed by a signal. -/
def signalStatus (signal : Nat) : Nat := 128 + signal

/-- The signal of a write to a broken pipe. -/
def sigpipe : Nat := 13

/-- The signal that cannot be refused. -/
def sigkill : Nat := 9

/-- Ends a process. Its own children have nobody who waits for them any more. -/
def exit (w : World) (pid : Pid) (status : Nat) : World :=
  let w := w.modify pid fun p ↦ { p with descriptors := .empty, status := some status }
  let entries := w.processes.entries.filterMap fun (q, p) ↦
    if p.parent = some pid then
      if p.status.isSome then none else some (q, { p with parent := none })
    else some (q, p)
  let orphaned := match w.processes.get? pid with
    | some p => p.parent.isNone
    | none => false
  let w := { w with processes := ⟨entries⟩ }
  if orphaned then { w with processes := w.processes.erase pid } else w

/-- Ends a process by a signal, if it has not ended. -/
def kill (w : World) (pid : Pid) (signal : Nat) : World :=
  match w.processes.get? pid with
  | some p => if p.status.isSome then w else w.exit pid (signalStatus signal)
  | none => w

/-- Forgets a process that has been waited for. -/
def forget (w : World) (pid : Pid) : World := { w with processes := w.processes.erase pid }

/-- Adds a process and says its number. -/
def add (w : World) (p : Process) : Pid × World :=
  (w.next, { w with next := w.next + 1, processes := w.processes.set w.next p })

end Sidecar.World
