import Cohort.Span

/-!
How a loop of reads waits after failures: twice as long after each, and from the fifth failure in a
row on not at all until a time has passed, after which the count begins anew. A read that succeeds
ends it.
-/

namespace Cohort

/-- Failures in a row, and when the last one was. -/
structure Backoff where
  resetAfter : Span := .ofSecs 300
  failures : Nat := 0
  lastFailure : Nat := 0
  deriving DecidableEq, Repr

/-- What to do before the next read. -/
inductive Pause where
  | none
  | retry (delay : Span)
  /-- Too many failures: no reads for this long. -/
  | stopped (rest : Span)
  deriving DecidableEq, Repr

namespace Backoff

def stopAfter : Nat := 5

def maxFailures : Nat := UInt32.size - 1

def baseDelay : Span := .ofMillis 100

def maxDelay : Span := .ofSecs 60

/-- Records a failed read at the time `now`, in nanoseconds. -/
def failure (b : Backoff) (now : Nat) : Backoff :=
  { b with failures := min (b.failures + 1) maxFailures, lastFailure := now }

def success (b : Backoff) : Backoff := { b with failures := 0, lastFailure := 0 }

def delay (failures : Nat) : Span :=
  ⟨min (baseDelay.nanos <<< failures) maxDelay.nanos⟩

def pause (b : Backoff) (now : Nat) : Backoff × Pause :=
  if b.failures = 0 then (b, .none)
  else if b.failures ≥ stopAfter then
    let since := now - b.lastFailure
    if since ≥ b.resetAfter.nanos then (b.success, .none)
    else (b, .stopped ⟨b.resetAfter.nanos - since⟩)
  else (b, .retry (delay b.failures))

end Backoff

end Cohort
