import Cohort.Membership.Change
import Cohort.Proofs.View.Coordinator

/-! What the changes of a view make of it, and what they were decided on. Admissions and departures
are decided when their turn comes; a handover and a removal are decided before. -/

namespace Cohort

/-- Whether a change was decided before its turn. -/
def ViewChange.isEarly : ViewChange → Bool
  | .admission _ | .departure _ => false
  | .removal _ | .handover => true

/-- Whom a change removes from a view. -/
def ViewChange.removed (change : ViewChange) (current : View) (self : Member) : List Member :=
  match change with
  | .admission _ => []
  | .departure leaver => [leaver]
  | .removal crashed => crashed.filter (current.contains ·)
  | .handover => [self]

namespace Manager

theorem isSelf_iff (self : Member) (m : Option Member) :
    isSelf self m = true ↔ ∃ x, m = some x ∧ x.same self = true := by
  cases m <;> simp [isSelf]

theorem isSelf_congr {a b : Member} (alike : a.same b = true) (m : Option Member) :
    isSelf a m = isSelf b m := by
  cases m with
  | none => rfl
  | some x => exact Member.same_right alike x

/-- What a change was decided on: a handover is one of the coordinator, and a removal one of whoever
coordinates without those removed. The others decide nothing before their turn. -/
def Decided (change : ViewChange) (basis : Option View) (self : Member) : Prop :=
  match change with
  | .admission _ | .departure _ => True
  | .removal crashed => ∃ view failed, basis = some view ∧
      crashed = view.members.filter (·.isIn failed) ∧
      isSelf self (view.coordinatorWithout failed) = true
  | .handover => ∃ view, basis = some view ∧ isSelf self view.coordinator = true

/-- The view that a change is decided on, of those that the member has. -/
def basis (m : Manager) : ViewChange → Option View
  | .removal _ => m.detector.map (·.view)
  | .admission _ | .departure _ | .handover => m.view

/-- A member coordinates a view, or does once those are gone whom a change removes. -/
def Coordinates (self : Member) (current : View) (change : ViewChange) : Prop :=
  isSelf self current.coordinator = true ∨
    isSelf self (current.coordinatorWithout (change.removed current self)) = true

section
variable {change : ViewChange} {self : Member} {current next : View} {basis : Option View}

theorem decided_congr {a b : Member} (alike : a.same b = true) (decided : Decided change basis a) :
    Decided change basis b := by
  cases change with
  | admission | departure => trivial
  | removal crashed =>
    obtain ⟨view, failed, known, gone, elected⟩ := decided
    exact ⟨view, failed, known, gone, isSelf_congr alike _ ▸ elected⟩
  | handover =>
    obtain ⟨view, known, elected⟩ := decided
    exact ⟨view, known, isSelf_congr alike _ ▸ elected⟩

theorem withJoiner_some {joiner : Member} (made : withJoiner joiner current self = some next) :
    isSelf self current.coordinator = true ∧ next = current.successor self [joiner] [] [] := by
  unfold withJoiner at made
  split at made
  · contradiction
  · rename_i proper
    simp only [Bool.or_eq_true, not_or, Bool.not_eq_true', Bool.not_eq_false] at proper
    exact ⟨proper.2, (Option.some.inj made).symm⟩

theorem withoutLeaver_some {leaver : Member} (made : withoutLeaver leaver current self = some next) :
    isSelf self (current.coordinatorWithout [leaver]) = true ∧
      next = current.successor self [] [leaver] [] := by
  unfold withoutLeaver at made
  split at made
  · contradiction
  · rename_i proper
    simp only [Bool.or_eq_true, not_or, Bool.not_eq_true', Bool.not_eq_false] at proper
    exact ⟨proper.2, (Option.some.inj made).symm⟩

theorem withoutCrashed_some {crashed : List Member}
    (made : withoutCrashed crashed current self = some next) :
    next = current.successor self [] [] (crashed.filter (current.contains ·)) := by
  unfold withoutCrashed at made
  dsimp only at made
  split at made
  · contradiction
  · exact (Option.some.inj made).symm

theorem nextView_id (made : nextView change current self = some next) : next.id = current.id + 1 := by
  cases change with
  | admission joiner => rw [(withJoiner_some made).2, View.successor_id]
  | departure leaver => rw [(withoutLeaver_some made).2, View.successor_id]
  | removal crashed => rw [withoutCrashed_some made, View.successor_id]
  | handover => exact Option.some.inj made ▸ rfl

/-- Whoever coordinates once others are gone is not one of them. -/
theorem not_isIn_of_elected {view : View} {gone : List Member}
    (elected : isSelf self (view.coordinatorWithout gone) = true) : self.isIn gone = false := by
  obtain ⟨x, chosen, alike⟩ := (isSelf_iff _ _).mp elected
  rw [← Member.isIn_congr alike gone]
  exact (View.coordinatorWithout_mem chosen).2

/-- A member that makes the next view is in it, unless it hands over. -/
theorem contains_nextView (made : nextView change current self = some next)
    (decided : Decided change basis self) (present : current.contains self = true)
    (stays : change ≠ .handover) : next.contains self = true := by
  cases change with
  | admission joiner =>
    rw [(withJoiner_some made).2]
    exact View.contains_admission present
  | departure leaver =>
    obtain ⟨elected, same⟩ := withoutLeaver_some made
    rw [same, View.contains_successor]
    exact ⟨present, not_isIn_of_elected elected, rfl⟩
  | removal crashed =>
    obtain ⟨view, failed, -, gone, elected⟩ := decided
    have spared := not_isIn_of_elected elected
    rw [withoutCrashed_some made, View.contains_successor]
    refine ⟨present, rfl, ?_⟩
    rw [← Bool.not_eq_true, gone]
    intro named
    obtain ⟨x, member, alike⟩ := (Member.isIn_iff _ _).mp named
    have failing : x.isIn failed = true := by
      have chosen := (List.mem_filter.mp member).1
      exact (List.mem_filter.mp chosen).2
    rw [← Member.isIn_congr alike, spared] at failing
    contradiction
  | handover => exact absurd rfl stays

/-- A change that is made to the view it was decided on, or decided in its turn, is made by the
coordinator of that view or of what it leaves of it. -/
theorem coordinates_of_decided (made : nextView change current self = some next)
    (decided : Decided change basis self)
    (timely : change.isEarly = true → basis = some current) : Coordinates self current change := by
  cases change with
  | admission joiner => exact Or.inl (withJoiner_some made).1
  | departure leaver => exact Or.inr (withoutLeaver_some made).1
  | removal crashed =>
    obtain ⟨view, failed, known, gone, elected⟩ := decided
    have same : view = current := Option.some.inj (known.symm.trans (timely rfl))
    rw [same] at gone elected
    refine Or.inr ?_
    have alike : current.coordinatorWithout (ViewChange.removed (.removal crashed) current self) =
        current.coordinatorWithout failed := by
      refine View.coordinatorWithout_congr fun m member => ?_
      rw [Bool.eq_iff_iff, ViewChange.removed, gone, Member.isIn_filter]
      constructor
      · rintro ⟨x, chosen, -, same⟩
        rw [Member.isIn_congr same]
        exact (List.mem_filter.mp chosen).2
      · intro failing
        refine ⟨m, List.mem_filter.mpr ⟨member, failing⟩, ?_, Member.same_refl m⟩
        exact Member.isIn_of_mem member
    rw [alike]
    exact elected
  | handover =>
    obtain ⟨view, known, elected⟩ := decided
    rw [Option.some.inj (known.symm.trans (timely rfl))] at elected
    exact Or.inl elected

end

end Manager

end Cohort
