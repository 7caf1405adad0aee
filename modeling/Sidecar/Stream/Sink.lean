import Sidecar.Failure

/-!
# Scripted sinks and framed writing

A sink takes bytes from a writer. What it does is laid down in a script: take some of the bytes
that a call offers, or fail. `writeAll` goes on until all bytes are taken: a short write is
followed by a write of the rest, an interrupted one is tried again, and a write that takes nothing
is an error. `writeFramed` writes prolog, payload and epilog and flushes once at the end.
-/

namespace Sidecar

/-- What a sink does with one write. -/
inductive Sink.Response where
  /-- Takes as many of the bytes offered, at most. -/
  | take (n : Nat)
  /-- Fails the write. -/
  | fail (fault : IoFault)
  deriving DecidableEq, Repr

/-- One call on a sink. -/
inductive Sink.Call where
  /-- A write that offered so many bytes. -/
  | write (offered : Nat)
  /-- A flush. -/
  | flush
  deriving DecidableEq, Repr

/-- A sink: what it will do, and what has happened. -/
structure Sink where
  /-- The responses to the coming writes; after them a write takes everything. -/
  script : List Sink.Response
  /-- The error of a flush, if it fails. -/
  flushFault : Option IoFault
  /-- The bytes taken so far. -/
  taken : Bytes
  /-- The calls so far, latest first. -/
  calls : List Sink.Call
  deriving DecidableEq, Repr

namespace Sink

/-- A sink on which nothing has been called. -/
def ofScript (script : List Response) (flushFault : Option IoFault) : Sink :=
  ⟨script, flushFault, [], []⟩

/-- The error of a write that takes nothing. -/
def nothingTaken : IoFault := ⟨.writeZero, "failed to write whole buffer"⟩

/-- One write: the number of bytes taken, or the error. -/
def write (s : Sink) (bytes : Bytes) : Except IoFault Nat × Sink :=
  let s := { s with calls := .write bytes.length :: s.calls }
  match s.script with
  | [] => (.ok bytes.length, { s with taken := s.taken ++ bytes })
  | .take n :: script =>
    (.ok (min n bytes.length), { s with script, taken := s.taken ++ bytes.take n })
  | .fail fault :: script => (.error fault, { s with script })

/-- Writes as the script says until all bytes are taken or an error ends it. -/
def writeScripted (flushFault : Option IoFault) :
    List Response → Bytes → Bytes → List Call → Except IoFault Unit × Sink
  | script, [], taken, calls => (.ok (), ⟨script, flushFault, taken, calls⟩)
  | [], bytes, taken, calls =>
    (.ok (), ⟨[], flushFault, taken ++ bytes, .write bytes.length :: calls⟩)
  | .take n :: script, bytes, taken, calls =>
    let calls := .write bytes.length :: calls
    if n = 0 then (.error nothingTaken, ⟨script, flushFault, taken, calls⟩)
    else writeScripted flushFault script (bytes.drop n) (taken ++ bytes.take n) calls
  | .fail fault :: script, bytes, taken, calls =>
    let calls := .write bytes.length :: calls
    if fault.kind = .interrupted then writeScripted flushFault script bytes taken calls
    else (.error fault, ⟨script, flushFault, taken, calls⟩)

/-- Writes all bytes; nothing is called for no bytes. -/
def writeAll (s : Sink) (bytes : Bytes) : Except IoFault Unit × Sink :=
  writeScripted s.flushFault s.script bytes s.taken s.calls

/-- Flushes. -/
def flush (s : Sink) : Except IoFault Unit × Sink :=
  let s := { s with calls := .flush :: s.calls }
  match s.flushFault with
  | some fault => (.error fault, s)
  | none => (.ok (), s)

/-- Writes each piece in turn, up to the first error. -/
def writePieces (s : Sink) : List Bytes → Except IoFault Unit × Sink
  | [] => (.ok (), s)
  | piece :: pieces =>
    match s.writeAll piece with
    | (.ok (), s) => s.writePieces pieces
    | (.error fault, s) => (.error fault, s)

/-- Writes a payload in its envelope, without joining the pieces, and flushes. -/
def writeFramed (s : Sink) (envelope : Codec.Envelope) (payload : Bytes) :
    Except IoFault Unit × Sink :=
  match s.writePieces (envelope.prolog.toList ++ payload :: envelope.epilog.toList) with
  | (.ok (), s) => s.flush
  | (.error fault, s) => (.error fault, s)

end Sink
end Sidecar
