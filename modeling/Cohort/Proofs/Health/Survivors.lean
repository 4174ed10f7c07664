import Cohort.Proofs.Health.Attendance
import Cohort.Proofs.View.Distinct

/-! The survivors of a removal, all at once. Each of them decides for itself, from the view and from whom
it takes for REMOVED; where they agree on both, they agree on who makes the next view and on what it is. -/

namespace Cohort

namespace Detector

/-- A detector that holds a view, has just some of its members REMOVED, and does not take that for a
partition. -/
structure Bereaved (d : Detector) (view : View) (gone : List Member) : Prop where
  holds : d.view = view
  removed : ∀ m : Member, m ∈ view.members → (d.stateOf m = some .removed ↔ m.isIn gone = true)
  condemns : d.Condemns

/-- The view after one that some members are removed from, as one of the others makes it. -/
structure Succeeds (next view : View) (gone : List Member) (leader : Member) : Prop where
  id : next.id.toInt = view.id.toInt + 1
  members : next.members = view.members.filter (!·.isIn gone)
  shutdown : next.shutdown = []
  crashed : next.crashed = view.members.filter (·.isIn gone)
  exactly : ∀ m : Member, m.isIn next.crashed = m.isIn gone
  creator : next.creator = leader
  coordinator : next.coordinator = some leader

/-! ### What one survivor does -/

section
variable {d : Detector} {view : View} {gone : List Member}

theorem Bereaved.membersIn (bereaved : d.Bereaved view gone) :
    d.membersIn [.removed] = view.members.filter (·.isIn gone) := by
  unfold Detector.membersIn
  rw [bereaved.holds]
  refine List.filter_congr fun m member => ?_
  rw [Bool.eq_iff_iff, ← bereaved.removed m member]
  cases d.stateOf m <;> simp

/-- With somebody to remove, a survivor does what its place in the view has it do. -/
theorem Bereaved.conclude_eq (bereaved : d.Bereaved view gone)
    (somebody : view.members.filter (·.isIn gone) ≠ []) :
    d.conclude = d.undivided.removeFailed (view.members.filter (·.isIn gone)) := by
  rcases conclude_verdict d with ⟨nobody, -⟩ | ⟨detects, tooMuch, -⟩ | ⟨-, -, same⟩
  · exact absurd (bereaved.membersIn.symm.trans nobody) somebody
  · rw [bereaved.condemns detects] at tooMuch
    contradiction
  · rw [same, bereaved.membersIn]

theorem Bereaved.asks (bereaved : d.Bereaved view gone) {leader : Member}
    (somebody : view.members.filter (·.isIn gone) ≠ [])
    (leads : view.coordinatorWithout (view.members.filter (·.isIn gone)) = some leader)
    (other : leader.same d.self = false) :
    d.conclude.2 = (view.members.filter (·.isIn gone)).map
      fun m => .requestRemoval leader m "failed final check" := by
  have leads : d.undivided.view.coordinatorWithout (view.members.filter (·.isIn gone)) = some leader := by
    rw [← leads, ← bereaved.holds]
    rfl
  have other : leader.same d.undivided.self = false := other
  rw [bereaved.conclude_eq somebody]
  unfold removeFailed
  simp only [leads, other, Bool.false_eq_true, if_false]

theorem Bereaved.installs (bereaved : d.Bereaved view gone) {leader : Member}
    (somebody : view.members.filter (·.isIn gone) ≠ [])
    (leads : view.coordinatorWithout (view.members.filter (·.isIn gone)) = some leader)
    (own : leader.same d.self = true) :
    d.conclude.2 = [.installView (view.successor d.self [] [] (view.members.filter (·.isIn gone)))] := by
  have leads : d.undivided.view.coordinatorWithout (view.members.filter (·.isIn gone)) = some leader := by
    rw [← leads, ← bereaved.holds]
    rfl
  have own : leader.same d.undivided.self = true := own
  rw [bereaved.conclude_eq somebody]
  unfold removeFailed
  simp only [leads, own, if_true]
  rw [← bereaved.holds]
  rfl

end

/-! ### What they do together -/

/-- Whoever leads those who are left makes a view that it leads. -/
theorem succeeds_successor {view : View} {gone : List Member} {leader self : Member}
    (distinct : view.Distinct) (below : view.id < View.lastId)
    (known : ∀ m ∈ gone, view.contains m = true)
    (leads : view.coordinatorWithout (view.members.filter (·.isIn gone)) = some leader)
    (own : leader.same self = true) :
    Succeeds (view.successor self [] [] (view.members.filter (·.isIn gone))) view gone leader := by
  have among : ∀ m, m.isIn (view.members.filter (·.isIn gone)) = true ↔
      view.contains m = true ∧ m.isIn gone = true := fun m =>
    (View.crashed_successor view self m [] [] gone)
  have chosen : ∀ m ∈ view.members,
      m.isIn (view.members.filter (·.isIn gone)) = m.isIn gone := by
    intro m member
    have present : view.contains m = true := Member.isIn_of_mem member
    rw [Bool.eq_iff_iff, among]
    exact and_iff_right present
  have left : (view.successor self [] [] (view.members.filter (·.isIn gone))).members =
      view.members.filter (!·.isIn gone) := by
    refine List.filter_congr fun m member => ?_
    rw [chosen m member]
    rfl
  have crashed : (view.successor self [] [] (view.members.filter (·.isIn gone))).crashed =
      view.members.filter (·.isIn gone) :=
    List.filter_congr chosen
  refine ⟨?_, left, ?_, crashed, ?_, ?_, ?_⟩
  · exact View.toInt_next (Int32.ne_of_lt below)
  · exact List.filter_eq_nil_iff.mpr fun m _ => by simp [Member.isIn]
  · intro m
    rw [crashed, Bool.eq_iff_iff, among]
    refine and_iff_right_of_imp fun lost => ?_
    obtain ⟨x, member, alike⟩ := (Member.isIn_iff m gone).mp lost
    rw [View.contains_congr alike]
    exact known x member
  · have found := distinct.get? (View.coordinatorWithout_mem leads).1 own
    show (view.get? self).getD self = leader
    rw [found]
    rfl
  · rw [← leads]
    unfold View.coordinator View.coordinatorWithout
    rw [left]
    have everybody : (view.members.filter (!·.isIn gone)).filter (!·.isIn []) =
        view.members.filter (!·.isIn (view.members.filter (·.isIn gone))) := by
      rw [List.filter_filter]
      refine List.filter_congr fun m member => ?_
      rw [chosen m member]
      simp [Member.isIn]
    rw [everybody]

/-- Exactly one survivor removes. When the detectors of all the others have the same members of a view
REMOVED, one of these others makes the next view, which has them in their order, lists the removed as
crashed and is led by its creator. Everybody else asks that one to remove them, each of them once. -/
theorem one_survivor_removes {view : View} {gone : List Member} {detector : Member → Detector}
    (distinct : view.Distinct) (below : view.id < View.lastId)
    (nonempty : gone ≠ []) (known : ∀ m ∈ gone, view.contains m = true)
    (survives : ∃ m ∈ view.members, m.isIn gone = false)
    (own : ∀ m ∈ view.members, m.isIn gone = false → (detector m).self.same m = true)
    (bereaved : ∀ m ∈ view.members, m.isIn gone = false → (detector m).Bereaved view gone) :
    ∃ leader ∈ view.members, leader.isIn gone = false ∧
      (∃ next, (detector leader).conclude.2 = [.installView next] ∧ Succeeds next view gone leader) ∧
      ∀ m ∈ view.members, m.isIn gone = false → m ≠ leader →
        (detector m).conclude.2 = (view.members.filter (·.isIn gone)).map
          fun lost => .requestRemoval leader lost "failed final check" := by
  have chosen : ∀ m ∈ view.members,
      m.isIn gone = m.isIn (view.members.filter (·.isIn gone)) := by
    intro m member
    rw [Bool.eq_iff_iff, Member.isIn_filter]
    constructor
    · exact fun lost => ⟨m, member, lost, Member.same_refl m⟩
    · rintro ⟨x, -, lost, alike⟩
      exact (Member.isIn_congr alike gone).trans lost
  have somebody : view.members.filter (·.isIn gone) ≠ [] := by
    obtain ⟨lost, member⟩ := List.exists_mem_of_ne_nil gone nonempty
    obtain ⟨x, present, alike⟩ := (View.contains_iff view lost).mp (known lost member)
    refine List.ne_nil_of_mem (List.mem_filter.mpr ⟨present, ?_⟩)
    exact (Member.isIn_congr alike gone).symm.trans (Member.isIn_of_mem member)
  obtain ⟨survivor, member, left⟩ := survives
  obtain ⟨leader, leads⟩ := Option.isSome_iff_exists.mp
    (View.coordinatorWithout_isSome member ((chosen survivor member).symm.trans left))
  obtain ⟨present, remains⟩ := View.coordinatorWithout_mem leads
  have alive : leader.isIn gone = false := (chosen leader present).trans remains
  have itself : leader.same (detector leader).self = true := by
    rw [Member.same_comm]
    exact own leader present alive
  refine ⟨leader, present, alive, ⟨_, (bereaved leader present alive).installs somebody leads itself,
    succeeds_successor distinct below known leads itself⟩, ?_⟩
  intro m member stays apart
  have other : leader.same (detector m).self = false :=
    (Member.same_right (own m member stays) leader).trans
      (distinct.apart present member (Ne.symm apart))
  exact (bereaved m member stays).asks somebody leads other

/-- A view of four. -/
def quartet : View := ⟨1, .peer 1, [.peer 1, .peer 2, .peer 3, .peer 4], [], []⟩

/-- The detector of one of the four, with the first and the third REMOVED. It looks for partitions, but
half of the members may fail at once. -/
def bereft (m : Member) : Detector :=
  let d := create m quartet ⟨⟨1⟩, ⟨1⟩, ⟨1⟩, 1, true, .listed⟩ (.count 50) 0
  [.peer 1, .peer 3].foldl (fun d lost => d.update lost fun h => { h with state := .removed }) d

theorem bereft_bereaved : ∀ m ∈ quartet.members, m.isIn [.peer 1, .peer 3] = false →
    (bereft m).Bereaved quartet [.peer 1, .peer 3] := by
  intro m member stays
  have survivor : m = .peer 2 ∨ m = .peer 4 := by
    revert m
    decide
  rcases survivor with rfl | rfl
  · exact ⟨rfl, by decide, fun _ => by decide⟩
  · exact ⟨rfl, by decide, fun _ => by decide⟩

/-- The second and the fourth survive, and one of them makes a view of both. -/
theorem bereft_removes : ∃ leader ∈ quartet.members, leader.isIn [.peer 1, .peer 3] = false ∧
    (∃ next, (bereft leader).conclude.2 = [.installView next] ∧
      Succeeds next quartet [.peer 1, .peer 3] leader) ∧
    ∀ m ∈ quartet.members, m.isIn [.peer 1, .peer 3] = false → m ≠ leader →
      (bereft m).conclude.2 = [.requestRemoval leader (.peer 1) "failed final check",
        .requestRemoval leader (.peer 3) "failed final check"] :=
  one_survivor_removes (by decide) (by decide) (by decide) (by decide) (by decide) (by decide)
    bereft_bereaved

end Detector

end Cohort
