import Cohort.Message.Frame
import Cohort.Proofs.Wire.Words

/-! Frames in a stream: more bytes never change a frame that is complete, and frames that were written one
behind the other are cut apart again, up to the one that is not complete. -/

namespace Cohort.Frame

variable {input data rest bytes : List UInt8}

/-! ### The next frame -/

/-- A frame is next exactly behind four bytes that give its length. -/
theorem next_eq_frame_iff : next input = .frame data rest ↔
    ∃ head : List UInt8, head.length = 4 ∧ input = head ++ (data ++ rest) ∧
      Wire.Reader.ofBigEndian head = data.length ∧ data.length ≤ maxLength := by
  constructor
  · intro complete
    unfold next at complete
    split at complete
    · contradiction
    · rename_i counted
      dsimp only at complete
      split at complete
      · contradiction
      · rename_i allowed
        split at complete
        · contradiction
        · rename_i whole
          obtain ⟨rfl, rfl⟩ := Next.frame.inj complete
          have size : ((input.drop 4).take (Wire.Reader.ofBigEndian (input.take 4))).length =
              Wire.Reader.ofBigEndian (input.take 4) := List.length_take_of_le (Nat.not_lt.mp whole)
          refine ⟨input.take 4, List.length_take_of_le (Nat.not_lt.mp counted), ?_, size.symm, ?_⟩
          · rw [List.take_append_drop, List.take_append_drop]
          · rw [size]
            exact Nat.not_lt.mp allowed
  · rintro ⟨head, four, rfl, size, allowed⟩
    have counted : ¬ (head ++ (data ++ rest)).length < 4 := by
      rw [List.length_append]
      omega
    have whole : ¬ (data ++ rest).length < data.length := by
      rw [List.length_append]
      omega
    simp only [next, if_neg counted, List.take_left' four, List.drop_left' four, size,
      if_neg (Nat.not_lt.mpr allowed), if_neg whole, List.take_left, List.drop_left]

theorem next_eq_tooLong_iff : next input = .tooLong ↔
    4 ≤ input.length ∧ maxLength < Wire.Reader.ofBigEndian (input.take 4) := by
  unfold next
  split
  · rename_i few
    simp [Nat.not_le.mpr few]
  · rename_i counted
    dsimp only
    split
    · rename_i long
      simp [Nat.not_lt.mp counted, long]
    · rename_i allowed
      split <;> simp [allowed]

theorem next_append_of_frame (complete : next input = .frame data rest) (more : List UInt8) :
    next (input ++ more) = .frame data (rest ++ more) := by
  obtain ⟨head, four, rfl, size, allowed⟩ := next_eq_frame_iff.mp complete
  exact next_eq_frame_iff.mpr ⟨head, four, by simp only [List.append_assoc], size, allowed⟩

theorem next_append_of_tooLong (broken : next input = .tooLong) (more : List UInt8) :
    next (input ++ more) = .tooLong := by
  obtain ⟨counted, long⟩ := next_eq_tooLong_iff.mp broken
  apply next_eq_tooLong_iff.mpr
  rw [List.take_append_of_le_length counted, List.length_append]
  exact ⟨by omega, long⟩

/-! ### Cutting -/

theorem frames_of_frame (complete : next input = .frame data rest) :
    (cut input).frames = data :: (cut rest).frames := by
  rw [cut]
  split <;> simp_all

theorem frames_of_incomplete (incomplete : next input = .incomplete) : (cut input).frames = [] := by
  rw [cut]
  split <;> simp_all

theorem frames_of_tooLong (broken : next input = .tooLong) : (cut input).frames = [] := by
  rw [cut]
  split <;> simp_all

/-! ### Frames that were written -/

theorem encode_eq_ok_iff :
    encode data = .ok bytes ↔ data.length ≤ maxLength ∧ bytes = Wire.bigEndian 4 data.length ++ data := by
  unfold encode
  split
  · rename_i long
    simp [Nat.not_le.mpr long]
  · rename_i allowed
    simp [Nat.not_lt.mp allowed, eq_comm]

theorem ofBigEndian_length (allowed : data.length ≤ maxLength) :
    Wire.Reader.ofBigEndian (Wire.bigEndian 4 data.length) = data.length := by
  have most : maxLength < 0x100 ^ 4 := by decide
  exact Wire.ofBigEndian_of_lt (Nat.lt_of_le_of_lt allowed most)

/-- A frame that was written is the next. -/
theorem next_written (written : encode data = .ok bytes) (rest : List UInt8) :
    next (bytes ++ rest) = .frame data rest := by
  obtain ⟨allowed, rfl⟩ := encode_eq_ok_iff.mp written
  exact next_eq_frame_iff.mpr ⟨Wire.bigEndian 4 data.length, Wire.length_bigEndian _ _,
    List.append_assoc _ _ _, ofBigEndian_length allowed, allowed⟩

/-- The beginning of a frame that was written is no frame yet. -/
theorem next_begun (written : encode data = .ok bytes) {sent : Nat} (part : sent < bytes.length) :
    next (bytes.take sent) = .incomplete := by
  obtain ⟨allowed, rfl⟩ := encode_eq_ok_iff.mp written
  have four := Wire.length_bigEndian 4 data.length
  rw [List.length_append, four] at part
  have size : ((Wire.bigEndian 4 data.length ++ data).take sent).length = sent := by
    rw [List.length_take, List.length_append, four]
    omega
  unfold next
  rw [size]
  split
  · rfl
  · rename_i counted
    have head : ((Wire.bigEndian 4 data.length ++ data).take sent).take 4 =
        Wire.bigEndian 4 data.length := by
      rw [List.take_take, Nat.min_eq_left (Nat.not_lt.mp counted), List.take_left' four]
    have missing : ((Wire.bigEndian 4 data.length ++ data).take sent).length - 4 < data.length := by
      omega
    simp only [head, ofBigEndian_length allowed, if_neg (Nat.not_lt.mpr allowed), List.length_drop,
      if_pos missing]

theorem frames_written (written : encode data = .ok bytes) (rest : List UInt8) :
    (cut (bytes ++ rest)).frames = data :: (cut rest).frames :=
  frames_of_frame (next_written written rest)

theorem frames_begun (written : encode data = .ok bytes) {sent : Nat} (part : sent < bytes.length) :
    (cut (bytes.take sent)).frames = [] :=
  frames_of_incomplete (next_begun written part)

theorem frames_nil : (cut []).frames = [] := frames_of_incomplete rfl

theorem length_pos_of_encode (written : encode data = .ok bytes) : 0 < bytes.length := by
  obtain ⟨-, rfl⟩ := encode_eq_ok_iff.mp written
  rw [List.length_append, Wire.length_bigEndian]
  exact Nat.add_pos_left (by decide) _

end Cohort.Frame
