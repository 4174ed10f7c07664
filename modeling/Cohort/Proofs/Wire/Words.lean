import Cohort.Wire.Reader
import Cohort.Wire.Writer
import Mathlib.Algebra.Group.Nat.Defs

/-! Words: a number that is written in some bytes is read back, as far as the bytes hold it. -/

namespace Cohort.Wire

theorem length_littleEndian (width n : Nat) : (littleEndian width n).length = width := by
  induction width generalizing n with
  | zero => rfl
  | succ width ih => simp only [littleEndian, List.length_cons, ih]

theorem length_bigEndian (width n : Nat) : (bigEndian width n).length = width := by
  rw [bigEndian, List.length_reverse, length_littleEndian]

theorem ofLittleEndian_littleEndian (width n : Nat) :
    Reader.ofLittleEndian (littleEndian width n) = n % 0x100 ^ width := by
  induction width generalizing n with
  | zero => simp [littleEndian, Reader.ofLittleEndian, Nat.mod_one]
  | succ width ih =>
    have low : n.toUInt8.toNat = n % 0x100 := rfl
    simp only [littleEndian, Reader.ofLittleEndian, ih, low]
    rw [Nat.pow_succ', Nat.mod_mul]

theorem ofBigEndian_bigEndian (width n : Nat) :
    Reader.ofBigEndian (bigEndian width n) = n % 0x100 ^ width := by
  rw [Reader.ofBigEndian, bigEndian, List.reverse_reverse, ofLittleEndian_littleEndian]

theorem ofBigEndian_of_lt {width n : Nat} (fits : n < 0x100 ^ width) :
    Reader.ofBigEndian (bigEndian width n) = n := by
  rw [ofBigEndian_bigEndian, Nat.mod_eq_of_lt fits]

end Cohort.Wire
