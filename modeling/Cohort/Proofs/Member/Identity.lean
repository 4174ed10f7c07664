import Cohort.Member.Basic

/-! Sameness of members: equality of identities, whatever else the descriptions say. -/

namespace Cohort.Member

theorem same_iff (a b : Member) : a.same b = true ↔ a.identity = b.identity := by
  simp [same]

@[simp] theorem same_refl (a : Member) : a.same a = true := by
  simp [same]

theorem same_comm (a b : Member) : a.same b = b.same a := by
  rw [Bool.eq_iff_iff, same_iff, same_iff]
  exact eq_comm

theorem same_trans {a b c : Member} (first : a.same b = true) (second : b.same c = true) :
    a.same c = true := by
  rw [same_iff] at *
  exact first.trans second

theorem same_left {a b : Member} (alike : a.same b = true) (c : Member) : a.same c = b.same c := by
  rw [same_iff] at alike
  rw [Bool.eq_iff_iff, same_iff, same_iff, alike]

theorem same_right {a b : Member} (alike : a.same b = true) (c : Member) : c.same a = c.same b := by
  rw [same_comm c a, same_comm c b, same_left alike]

theorem isIn_iff (m : Member) (members : List Member) :
    m.isIn members = true ↔ ∃ x ∈ members, m.same x = true := by
  simp [isIn]

theorem isIn_congr {a b : Member} (alike : a.same b = true) (members : List Member) :
    a.isIn members = b.isIn members := by
  simp only [isIn, funext (same_left alike)]

theorem isIn_of_mem {m : Member} {members : List Member} (member : m ∈ members) :
    m.isIn members = true :=
  (isIn_iff m members).mpr ⟨m, member, same_refl m⟩

theorem isIn_of_subset {few many : List Member} (included : few ⊆ many) {m : Member}
    (member : m.isIn few = true) : m.isIn many = true := by
  obtain ⟨x, found, alike⟩ := (isIn_iff m few).mp member
  exact (isIn_iff m many).mpr ⟨x, included found, alike⟩

theorem isIn_append (m : Member) (few more : List Member) :
    m.isIn (few ++ more) = (m.isIn few || m.isIn more) :=
  List.any_append

/-- A member is among the chosen ones exactly if a chosen description of it is there. -/
theorem isIn_filter (m : Member) (members : List Member) (p : Member → Bool) :
    m.isIn (members.filter p) = true ↔ ∃ x ∈ members, p x = true ∧ m.same x = true := by
  simp [isIn_iff, and_assoc]

@[simp] theorem identity_withViewId (m : Member) (id : Int32) :
    (m.withViewId id).identity = m.identity := rfl

/-- A member of which nothing matters but its port. -/
def peer (port : UInt16) : Member where
  host := .v4 0x7f000001
  hostName := "localhost"
  membershipPort := port
  directPort := 0
  processId := 1
  kind := .normal
  viewId := 1
  version := .current
  name := ""
  groups := []
  durableId := none
  durableTimeout := 0
  preferred := false
  partitionDetection := false
  weight := 10
  instanceTag := .zero
  provisional := false
  uniqueTag := none
  preferred_may := by simp

end Cohort.Member
