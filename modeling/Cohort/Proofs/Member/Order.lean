import Cohort.Proofs.Member.Identity

/-! The order of identities is a linear order, so a table that is kept in it has one place for each
member. -/

namespace Cohort

open Std

/-- Two numbers compared one after the other. -/
abbrev comparePairs : UInt64 × UInt64 → UInt64 × UInt64 → Ordering :=
  compareLex (compareOn Prod.fst) (compareOn Prod.snd)

instance : TransCmp Net.Ip.compare where
  eq_swap {a b} := by
    cases a <;> cases b
    case v4.v4 a b =>
      change Ord.compare a b = (Ord.compare b a).swap
      exact OrientedCmp.eq_swap
    case v6.v6 a b c d =>
      change comparePairs (a, b) (c, d) = (comparePairs (c, d) (a, b)).swap
      exact OrientedCmp.eq_swap
    all_goals rfl
  isLE_trans {a b c} := by
    cases a <;> cases b <;> cases c
    case v4.v4.v4 a b c => exact @TransCmp.isLE_trans _ Ord.compare _ a b c
    case v6.v6.v6 a b c d e f => exact @TransCmp.isLE_trans _ comparePairs _ (a, b) (c, d) (e, f)
    all_goals simp [Net.Ip.compare]

instance : TransCmp InstanceTag.compare :=
  inferInstanceAs (TransCmp (compareLex (compareOn InstanceTag.high) (compareOn InstanceTag.low)))

instance : TransCmp Identity.compareTags where
  eq_swap {a b} := by
    cases a <;> cases b
    case some.some a b =>
      change Ord.compare a b = (Ord.compare b a).swap
      exact OrientedCmp.eq_swap
    all_goals rfl
  isLE_trans {a b c} := by
    cases a <;> cases b <;> cases c
    case some.some.some a b c => exact @TransCmp.isLE_trans _ Ord.compare _ a b c
    all_goals simp [Identity.compareTags]

/-- Comparing what a function makes of two things. -/
theorem transCmp_comap {α β : Type} (cmp : β → β → Ordering) [TransCmp cmp] (f : α → β) :
    TransCmp fun a b => cmp (f a) (f b) where
  eq_swap := OrientedCmp.eq_swap
  isLE_trans := TransCmp.isLE_trans

instance : TransCmp Identity.compare := by
  have hosts := transCmp_comap Net.Ip.compare Identity.host
  have instanceTags := transCmp_comap InstanceTag.compare Identity.instanceTag
  have uniqueTags := transCmp_comap Identity.compareTags Identity.uniqueTag
  exact inferInstanceAs (TransCmp (compareLex (fun a b => a.host.compare b.host) <|
    compareLex (compareOn Identity.membershipPort) <| compareLex (compareOn Identity.directPort) <|
    compareLex (fun a b => a.instanceTag.compare b.instanceTag)
      fun a b => Identity.compareTags a.uniqueTag b.uniqueTag))

/-! ### Who shares a place -/

theorem Net.Ip.eq_of_compare {a b : Net.Ip} (equal : a.compare b = .eq) : a = b := by
  cases a <;> cases b
  case v4.v4 a b => exact congrArg Net.Ip.v4 (Std.compare_eq_iff_eq.mp equal)
  case v6.v6 a b c d =>
    obtain ⟨high, low⟩ := Ordering.then_eq_eq.mp equal
    rw [Std.compare_eq_iff_eq.mp high, Std.compare_eq_iff_eq.mp low]
  all_goals contradiction

theorem Identity.eq_of_compareTags {a b : Option String} (equal : compareTags a b = .eq) : a = b := by
  cases a <;> cases b
  case none.none => rfl
  case some.some a b => exact congrArg some (Std.compare_eq_iff_eq.mp equal)
  all_goals contradiction

/-- Only one identity has a place. -/
theorem Identity.eq_of_compare {a b : Identity} (equal : a.compare b = .eq) : a = b := by
  obtain ⟨host, equal⟩ := Ordering.then_eq_eq.mp equal
  obtain ⟨membershipPort, equal⟩ := Ordering.then_eq_eq.mp equal
  obtain ⟨directPort, equal⟩ := Ordering.then_eq_eq.mp equal
  obtain ⟨instanceTag, uniqueTag⟩ := Ordering.then_eq_eq.mp equal
  obtain ⟨high, low⟩ := Ordering.then_eq_eq.mp instanceTag
  obtain ⟨hostA, membershipA, directA, ⟨highA, lowA⟩, uniqueA⟩ := a
  obtain ⟨hostB, membershipB, directB, ⟨highB, lowB⟩, uniqueB⟩ := b
  cases Net.Ip.eq_of_compare host
  cases Std.compare_eq_iff_eq.mp membershipPort
  cases Std.compare_eq_iff_eq.mp directPort
  cases Std.compare_eq_iff_eq.mp high
  cases Std.compare_eq_iff_eq.mp low
  cases eq_of_compareTags uniqueTag
  rfl

namespace Member

instance : TransCmp Member.compare := transCmp_comap Identity.compare identity

theorem compare_left {a b : Member} (alike : a.same b = true) (c : Member) :
    a.compare c = b.compare c := by
  unfold compare
  rw [(same_iff a b).mp alike]

theorem compare_right {a b : Member} (alike : a.same b = true) (c : Member) :
    c.compare a = c.compare b := by
  unfold compare
  rw [(same_iff a b).mp alike]

theorem same_of_compare {a b : Member} (equal : a.compare b = .eq) : a.same b = true :=
  (same_iff a b).mpr (Identity.eq_of_compare equal)

/-- Of two members one goes before the other. -/
theorem not_same_of_lt {a b : Member} (before : a.compare b = .lt) : a.same b = false := by
  refine Bool.eq_false_iff.mpr fun alike => ?_
  have equal : b.compare b = .eq := ReflCmp.compare_self
  rw [compare_left alike, equal] at before
  contradiction

end Member

end Cohort
