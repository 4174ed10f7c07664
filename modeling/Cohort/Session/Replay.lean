/-!
The sequence numbers that a session has accepted, as far as a window of 64 bits remembers them.
-/

namespace Cohort

/-- The highest number marked, and a bit for it and for each of the 63 numbers below. -/
structure ReplayWindow where
  highest : Option UInt64 := none
  bitmap : UInt64 := 0
  deriving DecidableEq, Repr

namespace ReplayWindow

def width : UInt64 := 64

/-- Whether a number may be accepted: it is not marked and not too old to tell. -/
def isFresh (w : ReplayWindow) (number : UInt64) : Bool :=
  match w.highest with
  | none => true
  | some highest =>
    if number > highest then true
    else
      let age := highest - number
      age < width && (w.bitmap &&& (1 <<< age)) == 0

/-- Marks a number; one too old to remember changes nothing. -/
def mark (w : ReplayWindow) (number : UInt64) : ReplayWindow :=
  match w.highest with
  | none => ⟨some number, 1⟩
  | some highest =>
    if number > highest then
      let shift := number - highest
      let kept := if shift ≥ width then 0 else w.bitmap <<< shift
      ⟨some number, kept ||| 1⟩
    else
      let age := highest - number
      if age < width then { w with bitmap := w.bitmap ||| (1 <<< age) } else w

end ReplayWindow

end Cohort
