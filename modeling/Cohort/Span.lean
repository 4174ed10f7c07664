/-!
Lengths of time, in whole nanoseconds and without a bound, and their short written form.
-/

namespace Cohort

/-- A length of time. -/
structure Span where
  nanos : Nat
  deriving DecidableEq, Repr, Inhabited

namespace Span

def ofMillis (ms : Nat) : Span := ⟨ms * 1000000⟩

def ofSecs (secs : Nat) : Span := ⟨secs * 1000000000⟩

/-- Whole milliseconds, rounded down. -/
def millis (span : Span) : Nat := span.nanos / 1000000

instance : Add Span := ⟨fun a b => ⟨a.nanos + b.nanos⟩⟩

instance : LE Span := ⟨fun a b => a.nanos ≤ b.nanos⟩

instance : DecidableRel (fun a b : Span => a ≤ b) :=
  fun a b => inferInstanceAs (Decidable (a.nanos ≤ b.nanos))

def isZero (span : Span) : Bool := span.nanos == 0

/-- `count` in units of which `unit` are left over in the fraction, without trailing zeros. -/
def decimal (count fraction digits : Nat) : String :=
  let text := (Nat.toDigits 10 fraction)
  let padded := List.replicate (digits - text.length) '0' ++ text
  let kept := (padded.reverse.dropWhile (· == '0')).reverse
  if kept.isEmpty then toString count else toString count ++ "." ++ String.ofList kept

/-- The written form: in the largest of seconds, milli-, micro- and nanoseconds that the length
reaches, with as many places as it needs. -/
def text (span : Span) : String :=
  let n := span.nanos
  if n ≥ 1000000000 then decimal (n / 1000000000) (n % 1000000000) 9 ++ "s"
  else if n ≥ 1000000 then decimal (n / 1000000) (n % 1000000) 6 ++ "ms"
  else if n ≥ 1000 then decimal (n / 1000) (n % 1000) 3 ++ "µs"
  else toString n ++ "ns"

end Span

end Cohort
