import Cohort.Proofs.Health.Removal
import Cohort.Proofs.Membership.Accord
import Cohort.Proofs.Membership.Issue

/-! How far the numbers of views reach. A view is told with whatever number its creator gave it, and
only the next change counts on; after the greatest number nothing follows that anybody takes up. -/

namespace Cohort

/-- The next view goes on from the current one: its number is one greater, and whoever is in it and still at
the current number takes it up, however he was told of it. -/
structure View.Continues (current next : View) : Prop where
  number : next.id.toInt = current.id.toInt + 1
  taken : ∀ (m : Manager) (v told : View), m.view = some v → v.id = current.id → told.id = next.id →
    told.contains m.self = true → (m.adopt told).view = some told ∧
      ∀ sender : Member, sender.same told.creator = true → m.phase ≠ .closed →
        (m.takeView sender told).view = some told

/-- The number after a view's own is all that it takes. -/
theorem View.continues_iff {current next : View} (counts : next.id = current.id + 1) :
    current.Continues next ↔ current.id ≠ View.lastId := by
  constructor
  · intro continues last
    have number := continues.number
    rw [counts, last] at number
    exact absurd number (by decide)
  · intro below
    refine ⟨by rw [counts, View.toInt_next below], fun m v told known here there present => ?_⟩
    have newer : v.id < told.id := by
      rw [here, there, counts]
      exact View.lt_next below
    have adopts := Manager.adopt_view known newer present
    refine ⟨adopts, fun sender own going => ?_⟩
    have going : (m.phase == .closed) = false := beq_false_of_ne going
    rw [Manager.takeView, own, going]
    exact adopts

namespace Detector

/-- A view that a detector makes goes on from the detector's own, and is the detector's own from then on,
exactly if there is a number for it. -/
theorem installs_continue_iff {d : Detector} {x : Move} {next : View}
    (wanted : .installView next ∈ (d.move x).2) :
    d.view.Continues next ∧ (d.move x).1.view = next ↔ d.view.id ≠ View.lastId := by
  obtain ⟨-, failed, -, -, -, same, goesOn⟩ := move_installs wanted
  have counts : next.id = d.view.id + 1 := by rw [same, View.successor_id]
  rw [View.continues_iff counts]
  exact ⟨And.left, fun below => ⟨below, goesOn below⟩⟩

end Detector

namespace Manager.Course

/-- Nothing follows the view with the greatest number. -/
theorem last_view_stays {c : Course} (kept : c.Kept) {current : View}
    (known : c.manager.view = some current)
    (last : current.id = View.lastId) (more : List Move) : (c.after more).manager.view = some current := by
  obtain ⟨v, found, same | newer⟩ := (Vigil.grows_after kept more).view current known
  · rw [found, same]
  · have top : View.lastId.toInt = 2147483647 := rfl
    have bound := v.id.toInt_lt
    rw [last, Int32.lt_iff_toInt_lt] at newer
    omega

/-- In every run of a member, whatever views it was told, each view that it makes, or would make of
the one it has, goes on from the one that it is made of exactly if there is a number for it; and so
does each that a detector makes. Once a member has the view with the greatest number, it has that
for ever. -/
theorem next_continues_iff (config : Config) (policy : LossPolicy) (self : Member)
    (channel : Option Net.Endpoint) (rota : Detector.Rota) (moves : List Move) :
    let c := (fresh config policy self channel rota).after moves
    (∀ p ∈ c.made, p.current.Continues p.next ↔ p.current.id ≠ View.lastId) ∧
    (∀ current change next, c.manager.view = some current →
      nextView change current c.manager.self = some next →
      (current.Continues next ↔ current.id ≠ View.lastId)) ∧
    (∀ (d : Detector) x next, .installView next ∈ (d.move x).2 →
      (d.view.Continues next ∧ (d.move x).1.view = next ↔ d.view.id ≠ View.lastId)) ∧
    ∀ current, c.manager.view = some current → current.id = View.lastId →
      ∀ more, (c.after more).manager.view = some current := by
  intro c
  have kept : c.Kept := kept_after (kept_fresh config policy self channel rota) moves
  refine ⟨fun p made => ?_, fun current change next _ made => ?_, fun d x next wanted => ?_, ?_⟩
  · exact View.continues_iff (nextView_id (kept.proper p made).made)
  · exact View.continues_iff (nextView_id made)
  · exact Detector.installs_continue_iff wanted
  · exact fun current known last => last_view_stays kept known last

def lastView : View :=
  { id := View.lastId, creator := .peer 2, members := [.peer 1, .peer 2], shutdown := [], crashed := [] }

/-- A founder is told of the last view, and then somebody asks it to join. -/
def toldLast : List Move :=
  [.begin .start, .begin (.direct { sender := some (.peer 2), payload := .installView lastView }),
    asks (.peer 3), .resume 0 granted]

/-- The founder has the last view, makes one with the least number of it, and keeps to the last. -/
theorem toldLast_ends :
    (founder.after toldLast).manager.view = some lastView ∧
      (founder.after toldLast).made.map (·.next.id) = [Int32.minValue] ∧
      ¬ ∀ p ∈ (founder.after toldLast).made, p.current.Continues p.next := by
  refine ⟨by decide, by decide, fun all => ?_⟩
  have numbers : ∀ p ∈ (founder.after toldLast).made, p.next.id.toInt = p.current.id.toInt + 1 :=
    fun p made => (all p made).number
  revert numbers
  decide

end Manager.Course

end Cohort
