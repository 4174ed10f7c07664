import Mathlib.Data.List.Pairwise
import Cohort.Proofs.View.Successor

/-! Views that have no incarnation of a process twice. -/

namespace Cohort.View

/-- A view that has no incarnation twice. -/
def Distinct (view : View) : Prop := view.members.Pairwise fun a b => a.same b = false

instance (view : View) : Decidable view.Distinct :=
  inferInstanceAs (Decidable (view.members.Pairwise fun a b => a.same b = false))

theorem Distinct.apart {view : View} (distinct : view.Distinct) {a b : Member} (first : a ∈ view.members)
    (second : b ∈ view.members) (different : a ≠ b) : a.same b = false := by
  have : Std.Symm fun a b : Member => a.same b = false :=
    ⟨fun a b unlike => (Member.same_comm b a).trans unlike⟩
  exact List.Pairwise.forall distinct first second different

/-- A view without doubles has one description of each member. -/
theorem Distinct.get? {view : View} (distinct : view.Distinct) {m known : Member}
    (member : m ∈ view.members) (alike : m.same known = true) : view.get? known = some m := by
  have found : (view.members.find? known.same).isSome = true :=
    List.find?_isSome.mpr ⟨m, member, (Member.same_comm known m).trans alike⟩
  obtain ⟨x, first⟩ := Option.isSome_iff_exists.mp found
  have named : known.same x = true := List.find?_some first
  have same : x = m := by
    by_contra different
    have unlike := distinct.apart member (List.mem_of_find?_eq_some first) (Ne.symm different)
    rw [Member.same_trans alike named] at unlike
    contradiction
  exact first.trans (congrArg some same)

end Cohort.View
