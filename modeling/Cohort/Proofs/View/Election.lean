import Cohort.Proofs.View.Succession

/-! Whom the members of a view elect, told by the places in the view: and that the members who stay elect
the same one in the view after it, so a handover needs no election. -/

namespace Cohort.View

/-- Preferred members go before others, and members of an older view before those of a younger one. -/
def Precedes (a b : Member) : Prop :=
  a.preferred = true ∧ b.preferred = false ∨ a.preferred = b.preferred ∧ a.viewId < b.viewId

theorem outranks_iff {a b : Member} : outranks a b = true ↔ Precedes a b := by
  unfold outranks Precedes
  cases a.preferred <;> cases b.preferred <;> simp

theorem not_outranks_iff {a b : Member} : outranks a b = false ↔ ¬ Precedes a b := by
  rw [← outranks_iff, Bool.not_eq_true]

/-- Whom those members of a list elect of whom `left` holds. Of those who may coordinate it is the one
whom nobody goes before, and the first of such; if none of them may, it is the first of all. -/
inductive Elected (members : List Member) (left : Member → Bool) : Member → Prop where
  | able {before after : List Member} {leader : Member} (place : members = before ++ leader :: after)
      (remains : left leader = true) (may : leader.mayCoordinate = true)
      (earlier : ∀ m ∈ before, left m = true → m.mayCoordinate = true → Precedes leader m)
      (later : ∀ m ∈ after, left m = true → m.mayCoordinate = true → ¬ Precedes m leader) :
      Elected members left leader
  | first {before after : List Member} {leader : Member} (place : members = before ++ leader :: after)
      (remains : left leader = true) (gone : ∀ m ∈ before, left m = false)
      (unable : ∀ m ∈ members, left m = true → m.mayCoordinate = false) :
      Elected members left leader

/-- The foremost of a list goes before all that stand before it, and nobody behind goes before it. -/
theorem place_of_foremost {members : List Member} {best : Member} (first : foremost members = some best) :
    ∃ before after, members = before ++ best :: after ∧
      (∀ m ∈ before, outranks best m = true) ∧ ∀ m ∈ after, outranks m best = false := by
  induction members generalizing best with
  | nil => contradiction
  | cons m rest ih =>
    have behind : ∀ x ∈ rest, outranks x best = false := by
      intro x member
      exact outranks_foremost first (List.mem_cons_of_mem m member)
    unfold foremost at first
    cases later : foremost rest with
    | none =>
      rw [later] at first
      cases first
      exact ⟨[], rest, rfl, by simp, behind⟩
    | some other =>
      rw [later] at first
      dsimp only at first
      split at first
      · rename_i above
        cases first
        obtain ⟨before, after, rfl, earlier, beyond⟩ := ih later
        refine ⟨m :: before, after, rfl, ?_, beyond⟩
        intro x member
        rcases List.mem_cons.mp member with rfl | further
        · exact above
        · exact earlier x further
      · cases first
        exact ⟨[], rest, rfl, by simp, behind⟩

theorem foremost_of_place {before after : List Member} {best : Member}
    (earlier : ∀ m ∈ before, outranks best m = true) (later : ∀ m ∈ after, outranks m best = false) :
    foremost (before ++ best :: after) = some best := by
  induction before with
  | nil =>
    simp only [List.nil_append, foremost]
    cases next : foremost after with
    | none => rfl
    | some other => simp [later other (mem_of_foremost next)]
  | cons m before ih =>
    have rest := ih fun x member => earlier x (List.mem_cons_of_mem m member)
    simp only [List.cons_append, foremost, rest, earlier m List.mem_cons_self, if_true]

theorem foremost_eq_some_iff {members : List Member} {best : Member} :
    foremost members = some best ↔ ∃ before after, members = before ++ best :: after ∧
      (∀ m ∈ before, outranks best m = true) ∧ ∀ m ∈ after, outranks m best = false := by
  constructor
  · exact place_of_foremost
  · rintro ⟨before, after, rfl, earlier, later⟩
    exact foremost_of_place earlier later

/-- A place among the chosen ones of a list is a place in the list. -/
theorem filter_place_iff {members : List Member} {chosen : Member → Bool} {x : Member}
    {P Q : Member → Prop} :
    (∃ before after, members.filter chosen = before ++ x :: after ∧
        (∀ m ∈ before, P m) ∧ ∀ m ∈ after, Q m) ↔
      chosen x = true ∧ ∃ before after, members = before ++ x :: after ∧
        (∀ m ∈ before, chosen m = true → P m) ∧ ∀ m ∈ after, chosen m = true → Q m := by
  constructor
  · rintro ⟨before, after, split, earlier, later⟩
    obtain ⟨front, back, rfl, rfl, rest⟩ := List.filter_eq_append_iff.mp split
    obtain ⟨skipped, behind, rfl, none, picked, rfl⟩ := List.filter_eq_cons_iff.mp rest
    refine ⟨picked, front ++ skipped, behind, (List.append_assoc front skipped _).symm, ?_, ?_⟩
    · intro m member choice
      rcases List.mem_append.mp member with ahead | between
      · exact earlier m (List.mem_filter.mpr ⟨ahead, choice⟩)
      · exact absurd choice (none m between)
    · intro m member choice
      exact later m (List.mem_filter.mpr ⟨member, choice⟩)
  · rintro ⟨picked, before, after, rfl, earlier, later⟩
    refine ⟨before.filter chosen, after.filter chosen, ?_, ?_, ?_⟩
    · rw [List.filter_append, List.filter_cons_of_pos picked]
    · intro m member
      obtain ⟨ahead, choice⟩ := List.mem_filter.mp member
      exact earlier m ahead choice
    · intro m member
      obtain ⟨behind, choice⟩ := List.mem_filter.mp member
      exact later m behind choice

theorem elected_iff {members : List Member} {left : Member → Bool} {leader : Member} :
    (foremost ((members.filter left).filter (·.mayCoordinate))).or (members.filter left).head? =
      some leader ↔ Elected members left leader := by
  rw [List.filter_filter, List.head?_filter, Option.or_eq_some_iff]
  constructor
  · rintro (best | ⟨nobody, first⟩)
    · obtain ⟨chosen, before, after, place, earlier, later⟩ :=
        filter_place_iff.mp (foremost_eq_some_iff.mp best)
      obtain ⟨may, remains⟩ := Bool.and_eq_true_iff.mp chosen
      refine .able place remains may ?_ ?_
      · intro m member stays able
        exact outranks_iff.mp (earlier m member (Bool.and_eq_true_iff.mpr ⟨able, stays⟩))
      · intro m member stays able
        exact not_outranks_iff.mp (later m member (Bool.and_eq_true_iff.mpr ⟨able, stays⟩))
    · obtain ⟨remains, before, after, place, gone⟩ := List.find?_eq_some_iff_append.mp first
      refine .first place remains ?_ ?_
      · intro m member
        simpa using gone m member
      · intro m member stays
        have none := List.filter_eq_nil_iff.mp (foremost_eq_none_iff.mp nobody) m member
        simpa [stays] using none
  · rintro (⟨place, remains, may, earlier, later⟩ | ⟨place, remains, gone, unable⟩)
    · refine Or.inl (foremost_eq_some_iff.mpr (filter_place_iff.mpr ⟨?_, _, _, place, ?_, ?_⟩))
      · exact Bool.and_eq_true_iff.mpr ⟨may, remains⟩
      · intro m member chosen
        obtain ⟨able, stays⟩ := Bool.and_eq_true_iff.mp chosen
        exact outranks_iff.mpr (earlier m member stays able)
      · intro m member chosen
        obtain ⟨able, stays⟩ := Bool.and_eq_true_iff.mp chosen
        exact not_outranks_iff.mpr (later m member stays able)
    · refine Or.inr ⟨foremost_eq_none_iff.mpr (List.filter_eq_nil_iff.mpr ?_), ?_⟩
      · intro m member chosen
        obtain ⟨able, stays⟩ := Bool.and_eq_true_iff.mp chosen
        rw [unable m member stays] at able
        contradiction
      · refine List.find?_eq_some_iff_append.mpr ⟨remains, _, _, place, ?_⟩
        intro m member
        simp [gone m member]

/-- Somebody coordinates as long as anybody is left. -/
theorem coordinatorWithout_eq_none_iff {view : View} {gone : List Member} :
    view.coordinatorWithout gone = none ↔ ∀ m ∈ view.members, m.isIn gone = true := by
  constructor
  · intro nobody m member
    by_contra stays
    have somebody := coordinatorWithout_isSome member (Bool.eq_false_iff.mpr stays)
    rw [nobody] at somebody
    contradiction
  · intro all
    by_contra somebody
    obtain ⟨m, elected⟩ := Option.ne_none_iff_exists'.mp somebody
    obtain ⟨member, stays⟩ := coordinatorWithout_mem elected
    rw [all m member] at stays
    contradiction

section
variable (view : View) (creator : Member) (departed crashed : List Member)

theorem stays_eq : stays departed crashed = fun m => !m.isIn (departed ++ crashed) := by
  funext m
  rw [Member.isIn_append, stays, Bool.not_or]

/-- Without joiners, the next view has those who stay, and nobody else. -/
theorem members_departures : (view.successor creator [] departed crashed).members =
    view.members.filter (stays departed crashed) := rfl

theorem coordinator_eq :
    view.coordinator = (foremost (view.members.filter (·.mayCoordinate))).or view.members.head? := by
  have all : view.members.filter (!·.isIn []) = view.members := List.filter_eq_self.mpr fun _ _ => rfl
  rw [coordinator, coordinatorWithout, all]

/-- Whoever coordinates a view once some have departed and some have crashed is the coordinator of the view
that is made without them, in the same words. There is none only if nobody stays, and else it is the one
whom those who stay elect by their places in the first view. -/
theorem coordinator_survives :
    let next := view.successor creator [] departed crashed
    view.coordinatorWithout (departed ++ crashed) = next.coordinator ∧
      (next.coordinator = none ↔
        ∀ m ∈ view.members, m.isIn departed = true ∨ m.isIn crashed = true) ∧
      ∀ leader, next.coordinator = some leader ↔
        Elected view.members (stays departed crashed) leader := by
  intro next
  have same : next.coordinator = view.coordinatorWithout (departed ++ crashed) := by
    rw [coordinator_eq, members_departures, stays_eq]
    rfl
  refine ⟨same.symm, ?_, ?_⟩
  · rw [same, coordinatorWithout_eq_none_iff]
    simp only [Member.isIn_append, Bool.or_eq_true]
  · intro leader
    rw [same, stays_eq]
    exact elected_iff

end

end Cohort.View
