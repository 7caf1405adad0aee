import Sidecar.Failure

/-!
# Scripted sources

A source hands out bytes to a reader that offers it a slice of some length. What it does is laid
down in a script: serve bytes, as many as the slice takes, or fail. One read never spans two events
of the script, so every way of cutting a stream into reads is a script. A read of nothing is the
end of the stream, and so is the end of the script.
-/

namespace Sidecar

/-- One thing a source does. -/
inductive Source.Event where
  /-- Serves these bytes, over as many reads as the slices offered make necessary. -/
  | serve (bytes : Bytes)
  /-- Fails one read. -/
  | fail (fault : IoFault)
  deriving DecidableEq, Repr

/-- A source: what is left of the event being served, and of the script. -/
structure Source where
  /-- The most bytes that one read yields, if that is bounded. -/
  cap : Option Nat
  /-- What is left of the event being served. -/
  current : Bytes
  /-- The events to come. -/
  script : List Source.Event
  /-- The lengths of the slices offered so far, latest first. -/
  offers : List Nat
  deriving DecidableEq, Repr

namespace Source

/-- The source that follows a script. -/
def ofScript (cap : Option Nat) (script : List Event) : Source := ⟨cap, [], script, []⟩

/-- How many of the available bytes a read into a slice yields. -/
def yield (s : Source) (offered available : Nat) : Nat :=
  min (min offered available) (s.cap.getD available)

/-- Serves the first bytes of an event and keeps the rest for the next read. -/
def serveFrom (s : Source) (offered : Nat) (bytes : Bytes) (script : List Event) :
    Bytes × Source :=
  let n := s.yield offered bytes.length
  (bytes.take n, { s with current := bytes.drop n, script })

/-- One read into a slice of the offered length. -/
def read (s : Source) (offered : Nat) : Except IoFault Bytes × Source :=
  let s := { s with offers := offered :: s.offers }
  match s.current, s.script with
  | b :: rest, script => let (got, s) := s.serveFrom offered (b :: rest) script; (.ok got, s)
  | [], .serve bytes :: script => let (got, s) := s.serveFrom offered bytes script; (.ok got, s)
  | [], .fail fault :: script => (.error fault, { s with script })
  | [], [] => (.ok [], s)

/-- The bytes of an event, and one for the event itself. -/
def Event.weight : Event → Nat
  | .serve bytes => bytes.length + 1
  | .fail _ => 1

/-- The bytes and events still to come. -/
def remaining (s : Source) : Nat := 
  s.current.length + s.script.foldr (fun e n ↦ e.weight + n) 0

private theorem remaining_serveFrom (s : Source) (offered : Nat) (bytes : Bytes)
    (script : List Event) :
    (s.serveFrom offered bytes script).2.remaining +
        (s.serveFrom offered bytes script).1.length =
      bytes.length + script.foldr (fun e n ↦ e.weight + n) 0 := by
  simp only [serveFrom, remaining, List.length_drop, List.length_take]
  omega

/-- What a read yields is taken from what is to come. -/
theorem remaining_read_of_ok {s : Source} {offered : Nat} {bytes : Bytes}
    (h : (s.read offered).1 = .ok bytes) :
    (s.read offered).2.remaining + bytes.length ≤ s.remaining := by
  obtain ⟨cap, current, script, offers⟩ := s
  cases current with
  | cons b rest =>
    simp only [read, Except.ok.injEq] at h ⊢
    rw [← h, remaining_serveFrom]
    exact Nat.le_refl _
  | nil =>
    cases script with
    | nil =>
      simp only [read, Except.ok.injEq] at h ⊢
      simp [← h, remaining]
    | cons e script =>
      cases e with
      | serve more =>
        simp only [read, Except.ok.injEq] at h ⊢
        rw [← h, remaining_serveFrom]
        simp [remaining, Event.weight]
      | fail fault => simp [read] at h

/-- A read that fails leaves less to come. -/
theorem remaining_read_of_error {s : Source} {offered : Nat} {fault : IoFault}
    (h : (s.read offered).1 = .error fault) : (s.read offered).2.remaining < s.remaining := by
  obtain ⟨cap, current, script, offers⟩ := s
  cases current with
  | cons b rest => simp [read] at h
  | nil =>
    cases script with
    | nil => simp [read] at h
    | cons e script =>
      cases e with
      | serve more => simp [read] at h
      | fail fault => simp [read, remaining, Event.weight]

end Source
end Sidecar
