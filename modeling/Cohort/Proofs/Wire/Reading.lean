import Cohort.Proofs.Member.Draft
import Cohort.Proofs.Text.Utf8
import Cohort.Proofs.Wire.Words

/-! What was written is read: every reader gives back the value that its writer wrote, exactly from
the bytes written and whatever follows them. Lengths are the one condition, since they are written
in 64 bits. -/

namespace Cohort.Wire

theorem length_text (s : String) : 0 < (text s).length := by
  simp only [text, bytes, length, List.length_append, length_littleEndian]
  omega

theorem length_option {α : Type} {write : α → List UInt8} (value : Option α) :
    0 < (option write value).length := by
  cases value <;> exact Nat.succ_pos _

theorem length_member (m : Member) : 0 < (member m).length := by
  have last : (option text m.uniqueTag).Sublist (member m) := List.sublist_append_right _ _
  exact Nat.lt_of_lt_of_le (length_option m.uniqueTag) last.length_le

theorem length_le_flatMap {α : Type} {write : α → List UInt8} (written : ∀ a, 0 < (write a).length)
    (values : List α) : values.length ≤ (values.flatMap write).length := by
  induction values with
  | nil => exact Nat.le_refl 0
  | cons a values ih =>
    have := written a
    simp only [List.flatMap_cons, List.length_append, List.length_cons]
    omega

theorem ok_bind {ε α β : Type} (a : α) (next : α → Except ε β) :
    (Except.ok a >>= next) = next a := rfl

theorem of_bind_eq_ok {ε α β : Type} {x : Except ε α} {next : α → Except ε β} {b : β}
    (whole : (x >>= next) = .ok b) : ∃ a, x = .ok a ∧ next a = .ok b := by
  cases x with
  | error fault => cases whole
  | ok a => exact ⟨a, rfl, whole⟩

theorem of_bind_eq_error {ε α β : Type} {x : Except ε α} {next : α → Except ε β} {fault : ε}
    (whole : (x >>= next) = .error fault) : x = .error fault ∨ ∃ a, x = .ok a ∧ next a = .error fault := by
  cases x with
  | error own =>
    cases whole
    exact .inl rfl
  | ok a => exact .inr ⟨a, rfl, whole⟩

namespace Reader

variable {α β : Type}

theorem bind_of_ok {read : Reader α} {next : α → Reader β} {input rest : List UInt8} {a : α}
    (first : read input = .ok (a, rest)) : (read >>= next) input = next a rest := by
  change (read input >>= fun taken => next taken.1 taken.2) = _
  rw [first, ok_bind]

theorem of_bind_ok {read : Reader α} {next : α → Reader β} {input rest : List UInt8} {b : β}
    (whole : (read >>= next) input = .ok (b, rest)) :
    ∃ a middle, read input = .ok (a, middle) ∧ next a middle = .ok (b, rest) := by
  change (read input >>= fun taken => next taken.1 taken.2) = _ at whole
  obtain ⟨taken, first, second⟩ := of_bind_eq_ok whole
  exact ⟨taken.1, taken.2, first, second⟩

/-- A reader takes exactly these bytes off the front and makes the value of them, whatever follows. -/
def Gives (read : Reader α) (bytes : List UInt8) (value : α) : Prop :=
  bytes.length < UInt64.size → ∀ rest, read (bytes ++ rest) = .ok (value, rest)

theorem gives_pure (a : α) : Gives (pure a) [] a := fun _ _ => rfl

theorem gives_bind {read : Reader α} {next : α → Reader β} {used more : List UInt8} {a : α} {b : β}
    (first : Gives read used a) (second : Gives (next a) more b) :
    Gives (read >>= next) (used ++ more) b := by
  intro fits rest
  rw [List.length_append] at fits
  rw [List.append_assoc, bind_of_ok (first (by omega) (more ++ rest)), second (by omega)]

theorem gives_then {read : Reader α} {next : α → Reader β} {used : List UInt8} {a : α} {b : β}
    (first : Gives read used a) (second : Gives (next a) [] b) : Gives (read >>= next) used b := by
  rw [← List.append_nil used]
  exact gives_bind first second

theorem gives_map {read : Reader α} {used : List UInt8} {a : α} (f : α → β)
    (first : Gives read used a) : Gives (do return f (← read)) used (f a) :=
  gives_then first (gives_pure (f a))

theorem gives_take (bytes : List UInt8) (fault : Fault) :
    Gives (take bytes.length fault) bytes bytes := by
  intro _ rest
  have enough : ¬ (bytes ++ rest).length < bytes.length := by
    rw [List.length_append]
    omega
  simp only [take, if_neg enough, List.take_left, List.drop_left]

theorem gives_littleEndian (width : Nat) {n : Nat} (fits : n < 0x100 ^ width) (make : Nat → α) :
    Gives (do return make (ofLittleEndian (← fixed width))) (littleEndian width n) (make n) := by
  have read := gives_map (fun bytes => make (ofLittleEndian bytes))
    (gives_take (littleEndian width n) .truncated)
  rwa [length_littleEndian, ofLittleEndian_littleEndian, Nat.mod_eq_of_lt fits] at read

theorem gives_bigEndian (width : Nat) {n : Nat} (fits : n < 0x100 ^ width) (make : Nat → α) :
    Gives (do return make (ofBigEndian (← fixed width))) (bigEndian width n) (make n) := by
  have read := gives_map (fun bytes => make (ofBigEndian bytes))
    (gives_take (bigEndian width n) .truncated)
  rwa [length_bigEndian, ofBigEndian_of_lt fits] at read

theorem gives_word8 (n : UInt8) : Gives word8 (Wire.word8 n) n := fun _ _ => rfl

theorem gives_word16 (n : UInt16) : Gives word16 (Wire.word16 n) n := by
  have read := gives_littleEndian 2 n.toNat_lt Nat.toUInt16
  rwa [show n.toNat.toUInt16 = n from UInt16.ofNat_toNat] at read

theorem gives_word32 (n : UInt32) : Gives word32 (Wire.word32 n) n := by
  have read := gives_littleEndian 4 n.toNat_lt Nat.toUInt32
  rwa [show n.toNat.toUInt32 = n from UInt32.ofNat_toNat] at read

theorem gives_word64 (n : UInt64) : Gives word64 (Wire.word64 n) n := by
  have read := gives_littleEndian 8 n.toNat_lt Nat.toUInt64
  rwa [show n.toNat.toUInt64 = n from UInt64.ofNat_toNat] at read

theorem gives_signed32 (n : Int32) : Gives signed32 (Wire.signed32 n) n :=
  gives_map UInt32.toInt32 (gives_word32 n.toUInt32)

theorem gives_length {n : Nat} (fits : n < UInt64.size) : Gives length (Wire.length n) n :=
  gives_littleEndian 8 fits id

theorem gives_bool (b : Bool) : Gives bool (Wire.bool b) b := by
  intro _ rest
  cases b <;> rfl

/-- A length that stands before its bytes may be taken to fit. -/
theorem gives_of_fits {read : Reader α} {bytes : List UInt8} {value : α}
    (given : bytes.length < UInt64.size → Gives read bytes value) : Gives read bytes value :=
  fun fits => given fits fits

theorem gives_bytes (data : List UInt8) : Gives bytes (Wire.bytes data) data := by
  refine gives_of_fits fun fits => ?_
  simp only [Wire.bytes, List.length_append] at fits
  exact gives_bind (gives_length (by omega)) (gives_take data .truncated)

theorem gives_text (s : String) : Gives text (Wire.text s) s := by
  refine gives_of_fits fun fits => ?_
  simp only [Wire.text, Wire.bytes, List.length_append] at fits
  refine gives_bind (gives_length (by omega)) ?_
  refine gives_then (gives_take (Text.encode s) .truncatedText) ?_
  simp only [Text.decode_encode]
  exact gives_pure s

theorem gives_option {read : Reader α} {write : α → List UInt8} (value : Option α)
    (each : ∀ a ∈ value, Gives read (write a) a) :
    Gives (option read) (Wire.option write value) value := by
  cases value with
  | none => exact gives_bind (gives_word8 0) (gives_pure none)
  | some a => exact gives_bind (gives_word8 1) (gives_map some (each a rfl))

theorem gives_times {read : Reader α} {write : α → List UInt8} {values : List α}
    (each : ∀ a ∈ values, Gives read (write a) a) :
    Gives (times read values.length) (values.flatMap write) values := by
  induction values with
  | nil => exact gives_pure []
  | cons a values ih =>
    refine gives_bind (each a List.mem_cons_self) ?_
    exact gives_map (a :: ·) (ih fun b member => each b (List.mem_cons_of_mem a member))

theorem gives_list {read : Reader α} {write : α → List UInt8} (written : ∀ a, 0 < (write a).length)
    {values : List α} (each : ∀ a ∈ values, Gives read (write a) a) :
    Gives (list read) (Wire.list write values) values := by
  refine gives_of_fits fun fits => ?_
  simp only [Wire.list, List.length_append] at fits
  have count := length_le_flatMap written values
  exact gives_bind (gives_length (by omega)) (gives_times each)

theorem gives_ip (address : Net.Ip) : Gives ip (Wire.ip address) address := by
  cases address with
  | v4 bits =>
    have read := gives_bigEndian 4 bits.toNat_lt fun n => Net.Ip.v4 n.toUInt32
    rw [show bits.toNat.toUInt32 = bits from UInt32.ofNat_toNat] at read
    exact gives_bind (gives_word32 0) read
  | v6 high low =>
    have read := gives_bigEndian 8 low.toNat_lt fun n => Net.Ip.v6 high n.toUInt64
    rw [show low.toNat.toUInt64 = low from UInt64.ofNat_toNat] at read
    simp only [Wire.ip, List.append_assoc]
    refine gives_bind (gives_word32 1) ?_
    have front := gives_take (bigEndian 8 high.toNat) .truncated
    have value : ofBigEndian (bigEndian 8 high.toNat) = high.toNat := ofBigEndian_of_lt high.toNat_lt
    have same : (ofBigEndian (bigEndian 8 high.toNat)).toUInt64 = high := by
      rw [value]
      exact UInt64.ofNat_toNat
    rw [length_bigEndian] at front
    refine gives_bind front ?_
    rwa [same]

/-- A tag of zero is read back from none. -/
theorem gives_instanceTag (tag : InstanceTag) : Gives instanceTag (Wire.instanceTag tag) tag := by
  have each : ∀ tag : InstanceTag,
      Gives (do let high ← word64; let low ← word64; return InstanceTag.mk high low)
        (Wire.word64 tag.high ++ Wire.word64 tag.low) tag := fun tag =>
    gives_bind (gives_word64 tag.high) (gives_map (InstanceTag.mk tag.high) (gives_word64 tag.low))
  by_cases zero : tag.isZero
  · obtain rfl := InstanceTag.eq_zero_of_isZero zero
    exact gives_map (Option.getD · .zero) (gives_option none fun tag _ => each tag)
  · rw [Wire.instanceTag, if_neg zero]
    exact gives_map (Option.getD · .zero) (gives_option (some tag) fun tag _ => each tag)

theorem checkMember_ofMember (m : Member) :
    checkMember m.version.ordinal { Draft.ofMember m with version := .current } = .ok m := by
  simp only [checkMember, Version.ofOrdinal_ordinal]
  exact Draft.build_ofMember m

theorem gives_draft (m : Member) :
    Gives draft (Wire.member m)
      (m.version.ordinal, { Draft.ofMember m with version := .current }) := by
  unfold Wire.member
  simp only [List.append_assoc]
  refine gives_bind (gives_ip m.host) ?_
  refine gives_bind (gives_text m.hostName) ?_
  refine gives_bind (gives_word16 m.membershipPort) ?_
  refine gives_bind (gives_word16 m.directPort) ?_
  refine gives_bind (gives_word32 m.processId) ?_
  refine gives_bind (gives_word8 m.kind.code) ?_
  refine gives_bind (gives_signed32 m.viewId) ?_
  refine gives_bind (gives_word16 m.version.ordinal) ?_
  refine gives_bind (gives_text m.name) ?_
  refine gives_bind (gives_list length_text fun group _ => gives_text group) ?_
  refine gives_bind (gives_option m.durableId fun id _ => gives_text id) ?_
  refine gives_bind (gives_word32 m.durableTimeout) ?_
  refine gives_bind (gives_bool m.preferred) ?_
  refine gives_bind (gives_bool m.partitionDetection) ?_
  refine gives_bind (gives_word8 m.weight) ?_
  refine gives_bind (gives_instanceTag m.instanceTag) ?_
  refine gives_bind (gives_bool m.provisional) ?_
  exact gives_map _ (gives_option m.uniqueTag fun tag _ => gives_text tag)

theorem gives_member (m : Member) : Gives member (Wire.member m) m := by
  refine gives_then (gives_draft m) ?_
  simp only [checkMember_ofMember]
  exact gives_pure m

theorem gives_members (members : List Member) :
    Gives (list member) (Wire.list Wire.member members) members :=
  gives_list length_member fun m _ => gives_member m

theorem gives_view (v : View) : Gives view (Wire.view v) v := by
  simp only [Wire.view, List.append_assoc]
  refine gives_bind (gives_signed32 v.id) ?_
  refine gives_bind (gives_member v.creator) ?_
  refine gives_bind (gives_members v.members) ?_
  refine gives_bind (gives_members v.shutdown) ?_
  exact gives_map _ (gives_members v.crashed)

end Reader

end Cohort.Wire
