import Mathlib.Data.Nat.Bitwise
import Cohort.Session.Replay

/-! What the window knows of the numbers that were marked: the greatest, and which of the 63 below it.
So a number is fresh exactly if it was not marked and is fewer than 64 behind every one that was. -/

namespace Cohort.ReplayWindow

/-- Whether the number that is `age` below the highest has its bit. -/
def remembers (w : ReplayWindow) (age : Nat) : Bool := w.bitmap.toNat.testBit age

def Recalls (w : ReplayWindow) (marked : UInt64 → Prop) : Prop :=
  match w.highest with
  | none => ∀ n, ¬ marked n
  | some highest => marked highest ∧ (∀ n, marked n → n ≤ highest) ∧
      ∀ n ≤ highest, highest.toNat - n.toNat < 64 →
        (w.remembers (highest.toNat - n.toNat) = true ↔ marked n)

variable {w : ReplayWindow} {marked : UInt64 → Prop}

/-! ### Bits -/

theorem toNat_bit {age : UInt64} (short : age.toNat < 64) :
    ((1 : UInt64) <<< age).toNat = 2 ^ age.toNat := by
  have small : 2 ^ age.toNat < 2 ^ 64 := Nat.pow_lt_pow_right (by decide) short
  rw [UInt64.toNat_shiftLeft, Nat.mod_eq_of_lt short, UInt64.toNat_one, Nat.shiftLeft_eq,
    Nat.one_mul, Nat.mod_eq_of_lt small]

theorem and_bit_eq_zero_iff {age : UInt64} (short : age.toNat < 64) :
    ((w.bitmap &&& (1 <<< age)) == 0) = !w.remembers age.toNat := by
  have masked : (w.bitmap &&& (1 <<< age)).toNat = (w.remembers age.toNat).toNat * 2 ^ age.toNat := by
    rw [UInt64.toNat_and, toNat_bit short, Nat.and_two_pow, remembers]
  have positive : 0 < 2 ^ age.toNat := Nat.two_pow_pos _
  rw [Bool.eq_iff_iff, beq_iff_eq, ← UInt64.toNat_inj, masked]
  cases w.remembers age.toNat <;> simp

theorem testBit_or_bit {bitmap age : UInt64} (short : age.toNat < 64) (place : Nat) :
    (bitmap ||| (1 <<< age)).toNat.testBit place =
      (bitmap.toNat.testBit place || decide (place = age.toNat)) := by
  rw [UInt64.toNat_or, Nat.testBit_or, toNat_bit short, Nat.testBit_two_pow]
  simp only [eq_comm]

theorem testBit_shift {bitmap shift : UInt64} (short : shift.toNat < 64) {place : Nat}
    (inside : place < 64) : (bitmap <<< shift).toNat.testBit place =
      (decide (shift.toNat ≤ place) && bitmap.toNat.testBit (place - shift.toNat)) := by
  rw [UInt64.toNat_shiftLeft, Nat.mod_eq_of_lt short, Nat.testBit_mod_two_pow,
    Nat.testBit_shiftLeft]
  simp [inside]

/-! ### Marks -/

theorem recalls_fresh : Recalls {} fun _ => False := fun _ => id

theorem Recalls.congr {marked' : UInt64 → Prop} (recalls : w.Recalls marked)
    (same : ∀ n, marked n ↔ marked' n) : w.Recalls marked' := by
  have alike : marked = marked' := funext fun n => propext (same n)
  exact alike ▸ recalls

theorem isFresh_iff (recalls : w.Recalls marked) (number : UInt64) :
    w.isFresh number = true ↔
      ¬ marked number ∧ ∀ m, marked m → m.toNat < number.toNat + 64 := by
  unfold Recalls at recalls
  unfold isFresh
  cases top : w.highest with
  | none =>
    rw [top] at recalls
    simp only [true_iff]
    exact ⟨recalls number, fun m known => absurd known (recalls m)⟩
  | some highest =>
    rw [top] at recalls
    obtain ⟨known, greatest, bits⟩ := recalls
    dsimp only
    split
    · rename_i beyond
      have above : highest.toNat < number.toNat := beyond
      simp only [true_iff]
      constructor
      · intro seen
        have bound : number.toNat ≤ highest.toNat := greatest number seen
        omega
      · intro m seen
        have bound : m.toNat ≤ highest.toNat := greatest m seen
        omega
    · rename_i within
      have below : number ≤ highest := UInt64.not_lt.mp within
      have age : (highest - number).toNat = highest.toNat - number.toNat :=
        UInt64.toNat_sub_of_le _ _ below
      simp only [Bool.and_eq_true, decide_eq_true_eq, UInt64.lt_iff_toNat_lt]
      have limit : width.toNat = 64 := rfl
      rw [limit]
      constructor
      · rintro ⟨young, unset⟩
        rw [and_bit_eq_zero_iff young, Bool.not_eq_true', age] at unset
        rw [age] at young
        refine ⟨fun seen => ?_, fun m seen => ?_⟩
        · rw [(bits number below young).mpr seen] at unset
          contradiction
        · have bound : m.toNat ≤ highest.toNat := greatest m seen
          omega
      · rintro ⟨unseen, near⟩
        have young : highest.toNat - number.toNat < 64 := by
          have close := near highest known
          omega
        refine ⟨age ▸ young, ?_⟩
        rw [and_bit_eq_zero_iff (age ▸ young), Bool.not_eq_true', age]
        exact Bool.eq_false_iff.mpr fun set => unseen ((bits number below young).mp set)

theorem recalls_first (number : UInt64) : Recalls ⟨some number, 1⟩ (· = number) := by
  refine ⟨rfl, fun n same => same ▸ UInt64.le_refl _, ?_⟩
  intro n below young
  have under : n.toNat ≤ number.toNat := below
  simp only [remembers, UInt64.toNat_one]
  rw [Nat.testBit_one_eq_true_iff_self_eq_zero, ← UInt64.toNat_inj]
  omega

/-- A shift takes each bit to where its number stands below the new highest. -/
theorem testBit_moved {bitmap highest number n : UInt64} (beyond : highest < number)
    (below : n ≤ number) (young : number.toNat - n.toNat < 64) :
    (if number - highest ≥ width then 0 else bitmap <<< (number - highest)).toNat.testBit
        (number.toNat - n.toNat) =
      (decide (n ≤ highest) && bitmap.toNat.testBit (highest.toNat - n.toNat)) := by
  have above : highest.toNat < number.toNat := beyond
  have under : n.toNat ≤ number.toNat := below
  have distance : (number - highest).toNat = number.toNat - highest.toNat :=
    UInt64.toNat_sub_of_le _ _ (UInt64.le_of_lt beyond)
  simp only [UInt64.le_iff_toNat_le]
  split
  · rename_i far
    have gap : 64 ≤ number.toNat - highest.toNat := distance ▸ far
    have newer : ¬ n.toNat ≤ highest.toNat := by omega
    rw [UInt64.toNat_zero, Nat.zero_testBit, decide_eq_false newer, Bool.false_and]
  · rename_i near
    have gap : (number - highest).toNat < 64 := Nat.lt_of_not_le near
    rw [testBit_shift gap young, distance]
    by_cases older : n.toNat ≤ highest.toNat
    · have place : number.toNat - n.toNat - (number.toNat - highest.toNat) =
          highest.toNat - n.toNat := by omega
      rw [place, decide_eq_true older, decide_eq_true (by omega)]
    · rw [decide_eq_false older, decide_eq_false (by omega), Bool.false_and, Bool.false_and]

section
variable {highest number : UInt64} (greatest : ∀ n, marked n → n ≤ highest)
  (bits : ∀ n ≤ highest, highest.toNat - n.toNat < 64 →
    (w.remembers (highest.toNat - n.toNat) = true ↔ marked n))
include greatest bits

/-- A number above all that were marked becomes the highest, and the others age by the distance. -/
theorem recalls_ahead (beyond : highest < number) :
    Recalls ⟨some number,
      (if number - highest ≥ width then 0 else w.bitmap <<< (number - highest)) ||| 1⟩
      fun m => m = number ∨ marked m := by
  have above : highest.toNat < number.toNat := beyond
  refine ⟨Or.inl rfl, ?_, ?_⟩
  · rintro n (rfl | seen)
    · exact UInt64.le_refl _
    · exact UInt64.le_trans (greatest n seen) (UInt64.le_of_lt beyond)
  · intro n below young
    have under : n.toNat ≤ number.toNat := below
    have first : (1 : UInt64) = 1 <<< (0 : UInt64) := rfl
    have newest : number.toNat - n.toNat = 0 ↔ n = number := by
      rw [← UInt64.toNat_inj]
      omega
    simp only [remembers]
    rw [first, testBit_or_bit (by decide), testBit_moved beyond below young, UInt64.toNat_zero]
    simp only [Bool.or_eq_true, Bool.and_eq_true, decide_eq_true_eq, newest]
    rw [or_comm]
    refine or_congr_right ?_
    constructor
    · rintro ⟨low, set⟩
      have near : highest.toNat - n.toNat < 64 := by omega
      exact (bits n low near).mp set
    · intro seen
      have low := greatest n seen
      have near : highest.toNat - n.toNat < 64 := by omega
      exact ⟨low, (bits n low near).mpr seen⟩

/-- A number that is not above the highest gets its bit, if it is not too old for one. -/
theorem recalls_behind (known : marked highest) (top : w.highest = some highest)
    (below : number ≤ highest) :
    Recalls (if highest - number < width then
      { w with bitmap := w.bitmap ||| (1 <<< (highest - number)) } else w)
      fun m => m = number ∨ marked m := by
  have age : (highest - number).toNat = highest.toNat - number.toNat :=
    UInt64.toNat_sub_of_le _ _ below
  have marks : ∀ n, n = number ∨ marked n → n ≤ highest := by
    rintro n (rfl | seen)
    · exact below
    · exact greatest n seen
  split
  · rename_i recent
    have young : (highest - number).toNat < 64 := recent
    simp only [Recalls, top]
    refine ⟨Or.inr known, marks, ?_⟩
    intro n low near
    have under : n.toNat ≤ highest.toNat := low
    have under' : number.toNat ≤ highest.toNat := below
    have same : highest.toNat - n.toNat = (highest - number).toNat ↔ n = number := by
      rw [age, ← UInt64.toNat_inj]
      omega
    have kept := bits n low near
    simp only [remembers] at kept ⊢
    rw [testBit_or_bit young, Bool.or_eq_true, decide_eq_true_eq, same, kept, or_comm]
  · rename_i old
    -- The window forgets the number: nobody asks for its bit.
    simp only [Recalls, top]
    refine ⟨Or.inr known, marks, ?_⟩
    intro n low near
    have far : 64 ≤ (highest - number).toNat := Nat.le_of_not_lt old
    have other : n ≠ number := by
      rintro rfl
      omega
    simp only [other, false_or]
    exact bits n low near

end

theorem recalls_mark (recalls : w.Recalls marked) (number : UInt64) :
    (w.mark number).Recalls fun m => m = number ∨ marked m := by
  unfold Recalls at recalls
  unfold mark
  cases top : w.highest with
  | none =>
    rw [top] at recalls
    exact (recalls_first number).congr fun n => (or_iff_left (recalls n)).symm
  | some highest =>
    rw [top] at recalls
    obtain ⟨known, greatest, bits⟩ := recalls
    dsimp only
    split
    · rename_i beyond
      exact recalls_ahead greatest bits beyond
    · rename_i within
      rw [← top]
      exact recalls_behind greatest bits known top (UInt64.not_lt.mp within)

end Cohort.ReplayWindow
