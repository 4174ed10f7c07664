import Cohort.Proofs.Wire.Reading

/-! What was read is written in no more: whichever bytes a reader took, the value that it made of
them is written in no more bytes than those. Only an instance tag can become shorter, since a tag of
zero is written as none. -/

namespace Cohort.Wire.Reader

variable {α β : Type}

/-- Whatever a reader makes can be written in no more bytes than it took, together with those that
were saved before. -/
def Affords (saved : Nat) (read : Reader α) (cost : α → Nat) : Prop :=
  ∀ input value rest, read input = .ok (value, rest) →
    cost value + rest.length ≤ saved + input.length

theorem affords_pure {saved : Nat} {a : α} {cost : α → Nat} (enough : cost a ≤ saved) :
    Affords saved (pure a) cost := by
  intro input value rest taken
  cases taken
  omega

theorem affords_fail {saved : Nat} {fault : Fault} {cost : α → Nat} :
    Affords saved (fail fault) cost := by
  intro input value rest taken
  cases taken

theorem affords_bind {saved : Nat} {read : Reader α} {next : α → Reader β} {cost : α → Nat}
    {total : β → Nat} (first : Affords 0 read cost)
    (second : ∀ a, Affords (saved + cost a) (next a) total) :
    Affords saved (read >>= next) total := by
  intro input value rest taken
  obtain ⟨a, middle, taken₁, taken₂⟩ := of_bind_ok taken
  have spent₁ := first _ _ _ taken₁
  have spent₂ := second a _ _ _ taken₂
  omega

theorem affords_take (count : Nat) (fault : Fault) : Affords 0 (take count fault) List.length := by
  intro input value rest taken
  unfold take at taken
  split at taken
  · cases taken
  · cases taken
    simp only [List.length_take, List.length_drop]
    omega

theorem affords_fixed (width : Nat) : Affords 0 (fixed width) fun _ => width := by
  intro input value rest taken
  simp only [fixed, take] at taken
  split at taken
  · cases taken
  · cases taken
    simp only [List.length_drop]
    omega

theorem affords_map {saved : Nat} {read : Reader α} {cost : α → Nat} {f : α → β} {total : β → Nat}
    (first : Affords 0 read cost) (enough : ∀ a, total (f a) ≤ saved + cost a) :
    Affords saved (do return f (← read)) total :=
  affords_bind first fun a => affords_pure (enough a)

theorem affords_word8 : Affords 0 word8 fun n => (Wire.word8 n).length := by
  intro input value rest taken
  cases input with
  | nil => cases taken
  | cons b input =>
    cases taken
    simp only [Wire.word8, List.length_cons, List.length_nil]
    omega

/-- A word that is made of `width` bytes and written in as many. -/
theorem affords_word {width : Nat} {make : List UInt8 → α} {write : α → List UInt8}
    (written : ∀ a, (write a).length = width) :
    Affords 0 (do return make (← fixed width)) fun a => (write a).length :=
  affords_map (affords_fixed width) fun bytes => by
    simp only [written, Nat.zero_add, Nat.le_refl]

theorem affords_word16 : Affords 0 word16 fun n => (Wire.word16 n).length :=
  affords_word fun n => length_littleEndian 2 n.toNat

theorem affords_word32 : Affords 0 word32 fun n => (Wire.word32 n).length :=
  affords_word fun n => length_littleEndian 4 n.toNat

theorem affords_word64 : Affords 0 word64 fun n => (Wire.word64 n).length :=
  affords_word fun n => length_littleEndian 8 n.toNat

theorem affords_signed32 : Affords 0 signed32 fun n => (Wire.signed32 n).length :=
  affords_map affords_word32 fun n => by
    simp only [Wire.signed32, Wire.word32, length_littleEndian, Nat.zero_add, Nat.le_refl]

theorem affords_length : Affords 0 length fun n => (Wire.length n).length :=
  affords_word fun n => length_littleEndian 8 n

theorem affords_bool : Affords 0 bool fun b => (Wire.bool b).length := by
  refine affords_bind affords_word8 fun byte => ?_
  split
  · exact affords_pure (Nat.le_refl 1)
  split
  · exact affords_pure (Nat.le_refl 1)
  · exact affords_fail

theorem affords_bytes : Affords 0 bytes fun data => (Wire.bytes data).length := by
  refine affords_bind affords_length fun count => ?_
  intro input value rest taken
  have spent := affords_take count .truncated _ _ _ taken
  simp only [Wire.bytes, Wire.length, List.length_append, length_littleEndian]
  omega

theorem affords_text : Affords 0 text fun s => (Wire.text s).length := by
  refine affords_bind affords_length fun count => ?_
  refine affords_bind (affords_take count .truncatedText) fun bytes => ?_
  cases decoded : Text.decode bytes with
  | error fault => exact affords_fail
  | ok s =>
    refine affords_pure ?_
    simp only [Wire.text, Wire.bytes, Text.encode_of_decode decoded, Wire.length, List.length_append,
      length_littleEndian]
    omega

theorem affords_option {read : Reader α} {write : α → List UInt8}
    (each : Affords 0 read fun a => (write a).length) :
    Affords 0 (option read) fun value => (Wire.option write value).length := by
  refine affords_bind affords_word8 fun byte => ?_
  split
  · exact affords_pure (Nat.le_refl 1)
  split
  · exact affords_map each fun a => by
      simp only [Wire.option, Wire.word8, List.length_cons, List.length_nil]
      omega
  · exact affords_fail

theorem affords_times {read : Reader α} {write : α → List UInt8}
    (each : Affords 0 read fun a => (write a).length) (count : Nat) :
    Affords 0 (times read count) fun values => (values.flatMap write).length := by
  induction count with
  | zero => exact affords_pure (Nat.le_refl 0)
  | succ count ih =>
    refine affords_bind each fun a => ?_
    exact affords_map ih fun values => by
      simp only [List.flatMap_cons, List.length_append]
      omega

theorem affords_list {read : Reader α} {write : α → List UInt8}
    (each : Affords 0 read fun a => (write a).length) :
    Affords 0 (list read) fun values => (Wire.list write values).length := by
  refine affords_bind affords_length fun count => ?_
  intro input values rest taken
  have spent := affords_times each count _ _ _ taken
  simp only [Wire.list, Wire.length, List.length_append, length_littleEndian] at spent ⊢
  omega

theorem affords_ip : Affords 0 ip fun address => (Wire.ip address).length := by
  refine affords_bind affords_word32 fun tag => ?_
  split
  · refine affords_map (affords_fixed 4) fun bytes => ?_
    simp only [Wire.ip, Wire.word32, List.length_append, length_littleEndian, length_bigEndian]
    omega
  split
  · refine affords_bind (affords_fixed 8) fun high => ?_
    refine affords_map (affords_fixed 8) fun low => ?_
    simp only [Wire.ip, Wire.word32, List.length_append, length_littleEndian, length_bigEndian]
    omega
  · exact affords_fail

theorem affords_instanceTag : Affords 0 instanceTag fun tag => (Wire.instanceTag tag).length := by
  have each : Affords 0 (do let high ← word64; let low ← word64; return InstanceTag.mk high low)
      fun tag => (Wire.word64 tag.high ++ Wire.word64 tag.low).length := by
    refine affords_bind affords_word64 fun high => ?_
    exact affords_map affords_word64 fun low => by
      simp only [List.length_append]
      omega
  refine affords_map (affords_option each) fun tag => ?_
  cases tag with
  | none => exact Nat.le_refl 1
  | some tag =>
    simp only [Wire.instanceTag, Option.getD_some]
    split
    · simp only [Wire.option, List.length_cons, List.length_nil]
      omega
    · simp only [Nat.zero_add, Nat.le_refl]

theorem build_of_checkMember {ordinal : UInt16} {draft : Draft} {m : Member}
    (checked : checkMember ordinal draft = .ok m) :
    ∃ version, { draft with version := version }.build = .ok m := by
  unfold checkMember at checked
  cases found : Version.ofOrdinal ordinal with
  | error fault => rw [found] at checked; cases checked
  | ok version => rw [found] at checked; exact ⟨version, checked⟩

/-- What the member costs that a draft with an ordinal describes, if it describes one. -/
def memberCost (read : UInt16 × Draft) : Nat :=
  match checkMember read.1 read.2 with
  | .ok m => (Wire.member m).length
  | .error _ => 0

theorem affords_draft : Affords 0 draft memberCost := by
  refine affords_bind affords_ip fun host => ?_
  refine affords_bind affords_text fun hostName => ?_
  refine affords_bind affords_word16 fun membershipPort => ?_
  refine affords_bind affords_word16 fun directPort => ?_
  refine affords_bind affords_word32 fun processId => ?_
  refine affords_bind affords_word8 fun kindCode => ?_
  refine affords_bind affords_signed32 fun viewId => ?_
  refine affords_bind affords_word16 fun ordinal => ?_
  refine affords_bind affords_text fun name => ?_
  refine affords_bind (affords_list affords_text) fun groups => ?_
  refine affords_bind (affords_option affords_text) fun durableId => ?_
  refine affords_bind affords_word32 fun durableTimeout => ?_
  refine affords_bind affords_bool fun preferred => ?_
  refine affords_bind affords_bool fun partitionDetection => ?_
  refine affords_bind affords_word8 fun weight => ?_
  refine affords_bind affords_instanceTag fun instanceTag => ?_
  refine affords_bind affords_bool fun provisional => ?_
  refine affords_map (affords_option affords_text) fun uniqueTag => ?_
  unfold memberCost
  split
  · rename_i m checked
    obtain ⟨version, built⟩ := build_of_checkMember checked
    obtain ⟨sameHost, sameHostName, sameName, sameGroups, sameId, sameTag, sameUnique⟩ :=
      Draft.of_build built
    cases sameHost
    simp only [Option.getD_some] at sameHostName sameName
    unfold Wire.member
    simp only [sameHostName, sameName, sameGroups, sameId, sameTag, sameUnique,
      Wire.word8, Wire.word16, Wire.signed32, Wire.word32, Wire.bool, List.length_append,
      length_littleEndian, List.length_singleton]
    omega
  · exact Nat.zero_le _

theorem affords_member : Affords 0 member fun m => (Wire.member m).length := by
  refine affords_bind affords_draft fun ⟨ordinal, draft⟩ => ?_
  cases checked : checkMember ordinal draft with
  | ok m =>
    simp only [memberCost, checked]
    exact affords_pure (by omega)
  | error fault =>
    simp only [memberCost, checked]
    exact affords_fail

theorem affords_view : Affords 0 view fun v => (Wire.view v).length := by
  refine affords_bind affords_signed32 fun id => ?_
  refine affords_bind affords_member fun creator => ?_
  refine affords_bind (affords_list affords_member) fun members => ?_
  refine affords_bind (affords_list affords_member) fun shutdown => ?_
  refine affords_map (affords_list affords_member) fun crashed => ?_
  simp only [Wire.view, List.length_append]
  omega

end Cohort.Wire.Reader
