/-!
# Tallies

A tally counts what a stage has done, in unsigned 64-bit words.
-/

namespace Sidecar

/-- The counters of a stage. -/
structure Tally where
  /-- Parts seen. -/
  parts : UInt64 := 0
  /-- Failed requests. -/
  failed : UInt64 := 0
  /-- Answered requests. -/
  answered : UInt64 := 0
  /-- Batches completed. -/
  batches : UInt64 := 0
  deriving DecidableEq, Repr, Inhabited

namespace Tally

/-- Counts a part. -/
def countPart (t : Tally) : Tally := { t with parts := t.parts + 1 }

/-- Counts a failed request. -/
def countFailed (t : Tally) : Tally := { t with failed := t.failed + 1 }

/-- Counts an answered request. -/
def countAnswered (t : Tally) : Tally := { t with answered := t.answered + 1 }

/-- Counts a completed batch. -/
def countBatch (t : Tally) : Tally := { t with batches := t.batches + 1 }

end Tally
end Sidecar
