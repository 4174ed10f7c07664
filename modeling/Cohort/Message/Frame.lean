import Cohort.Error
import Cohort.Wire.Reader
import Cohort.Wire.Writer

/-!
Frames of the direct channel: a length of four bytes, the highest first, and as many bytes. No
frame is longer than sixteen mebibytes.
-/

namespace Cohort.Frame

def maxLength : Nat := 16 * 1024 * 1024

def encode (data : List UInt8) : Except IoFault (List UInt8) :=
  if data.length > maxLength then .error .frameTooLong
  else .ok (Wire.bigEndian 4 data.length ++ data)

/-- What the bytes received so far begin with. -/
inductive Next where
  | frame (data rest : List UInt8)
  | incomplete
  | tooLong
  deriving DecidableEq, Repr

def next (input : List UInt8) : Next :=
  if input.length < 4 then .incomplete
  else
    let size := Wire.Reader.ofBigEndian (input.take 4)
    let rest := input.drop 4
    if size > maxLength then .tooLong
    else if rest.length < size then .incomplete
    else .frame (rest.take size) (rest.drop size)

/-- The frames completed by the bytes so far, what is left of them, and whether a frame too long
ends the stream. -/
structure Cut where
  frames : List (List UInt8)
  rest : List UInt8
  broken : Bool
  deriving DecidableEq, Repr

theorem length_rest_lt {input data rest : List UInt8} (h : next input = .frame data rest) :
    rest.length < input.length := by
  unfold next at h
  split at h
  · cases h
  · dsimp only at h
    split at h
    · cases h
    · split at h
      · cases h
      · cases h
        simp only [List.length_drop]
        omega

def cut (input : List UInt8) : Cut :=
  match h : next input with
  | .incomplete => ⟨[], input, false⟩
  | .tooLong => ⟨[], input, true⟩
  | .frame data rest =>
    have := length_rest_lt h
    let later := cut rest
    { later with frames := data :: later.frames }
termination_by input.length

end Cohort.Frame
