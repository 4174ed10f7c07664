import Mathlib.Data.List.Pairwise
import Cohort.Proofs.Membership.Group
import Cohort.Proofs.Membership.Issue

/-! Whether a group has one view for each number. It does as long as the coordinator of a view makes
the next one and has that view itself, since then the next one can make no other. A handover breaks
this: the coordinator that leaves never has the view that it hands over, and still answers those who
wait for their turn. -/

namespace Cohort

namespace View

theorem initial_id (founder : Member) : (initial founder).id = 1 := rfl

theorem coordinator_congr {a b : View} (same : a.members = b.members) :
    a.coordinator = b.coordinator := by
  simp only [coordinator, coordinatorWithout, same]

theorem coordinatorWithout_of_other {view : View} {gone : List Member} {leader : Member}
    (leads : view.coordinator = some leader) (stays : leader.isIn gone = false) :
    view.coordinatorWithout gone = some leader := by
  have everybody : view.members.filter (!·.isIn []) = view.members := by simp [Member.isIn]
  unfold coordinator coordinatorWithout at leads
  rw [everybody] at leads
  exact lead_filter (!·.isIn gone) leads (by simp [stays])

end View

namespace Manager

/-- A view that is made by whoever coordinates the one before it, and is not the last of its maker. -/
structure Production.Orderly (p : Production) : Prop where
  own : isSelf p.self p.current.coordinator = true
  goesOn : ¬ p.Ends
  numbered : 0 < p.current.id

/-- Only a handover, a removal and the departure of the coordinator are out of order, as long as the
numbers of the views are in use for the first time. -/
theorem Production.exceptional {p : Production} (proper : p.Proper) (disorderly : ¬ p.Orderly) :
    p.change = .handover ∨ (∃ crashed, p.change = .removal crashed) ∨
      (∃ leaver, p.change = .departure leaver ∧ isSelf leaver p.current.coordinator = true) ∨
      p.current.id ≤ 0 ∨ p.current.id = View.lastId := by
  have orderly : isSelf p.self p.current.coordinator = true → p.change ≠ .handover →
      p.current.id ≤ 0 ∨ p.current.id = View.lastId := by
    intro own stays
    by_contra within
    obtain ⟨numbered, below⟩ := not_or.mp within
    exact disorderly ⟨own, not_or.mpr ⟨stays, below⟩, Int32.not_le.mp numbered⟩
  obtain ⟨-, made, -⟩ := proper
  obtain ⟨change, self, phase, current, next, basis⟩ := p
  cases change with
  | admission joiner =>
    exact Or.inr (Or.inr (Or.inr (orderly (withJoiner_some made).1 (by simp))))
  | removal crashed => exact Or.inr (Or.inl ⟨crashed, rfl⟩)
  | handover => exact Or.inl rfl
  | departure leaver =>
    refine Or.inr (Or.inr (or_iff_not_imp_left.mpr fun others => orderly ?_ (by simp)))
    obtain ⟨x, chosen, mine⟩ := (isSelf_iff _ _).mp (withoutLeaver_some made).1
    have somebody : current.coordinator.isSome = true :=
      View.coordinatorWithout_isSome (View.coordinatorWithout_mem chosen).1 rfl
    obtain ⟨leader, leads⟩ := Option.isSome_iff_exists.mp somebody
    have stays : leader.isIn [leaver] = false := by
      refine Bool.eq_false_iff.mpr fun leaves => others ⟨leaver, rfl, ?_⟩
      exact (isSelf_iff _ _).mpr ⟨leader, leads, by simpa [Member.isIn] using leaves⟩
    have same := View.coordinatorWithout_of_other leads stays
    rw [chosen] at same
    exact (isSelf_iff _ _).mpr ⟨leader, leads, Option.some.inj same ▸ mine⟩

namespace Course

/-- A member makes one view of each number, unless that view is its last. -/
theorem made_unique {c : Course} (kept : c.Kept) {p q : Production} (first : p ∈ c.made)
    (second : q ∈ c.made) (goesOn : ¬ p.Ends) (further : ¬ q.Ends)
    (same : p.current.id = q.current.id) : p = q := by
  let apart (p q : Production) : Prop := ¬ p.Ends → ¬ q.Ends → p.current.id ≠ q.current.id
  have symmetric : Std.Symm apart := ⟨fun _ _ differ first second => (differ second first).symm⟩
  have pairwise : c.made.Pairwise apart := kept.apart.imp fun newer goesOn _ same =>
    Int32.lt_irrefl (same ▸ newer goesOn)
  by_contra other
  exact pairwise.forall first second other goesOn further same

end Course

end Manager

namespace Group

open Manager

variable {ι : Type}

/-- Views of one number that anybody had installed have the same members. -/
def Agrees (g : Group ι) : Prop := ∀ a ∈ g.seen, ∀ b ∈ g.seen, a.id = b.id → a.members = b.members

instance (g : Group ι) : Decidable g.Agrees :=
  inferInstanceAs (Decidable (∀ a ∈ g.seen, ∀ b ∈ g.seen, a.id = b.id → a.members = b.members))

/-- There is one founder. -/
def FoundedOnce (g : Group ι) : Prop :=
  ∀ a ∈ g.seen, ∀ b ∈ g.seen, a.Founding → b.Founding → a.members = b.members

/-- Nobody has another view of the number of one that was not made in order. -/
def ExceptionsAgree (g : Group ι) : Prop :=
  ∀ i, ∀ p ∈ (g.course i).made, ¬ p.Orderly → p.next ∈ g.seen →
    ∀ b ∈ g.seen, b.id = p.next.id → b.members = p.next.members

section
variable {population : Population ι} {g : Group ι} {i j : ι} {p q : Production}

theorem made_once (traced : g.Traced population) (first : p ∈ (g.course i).made)
    (second : q ∈ (g.course j).made) (orderly : p.Orderly) (other : q.Orderly)
    (number : p.current.id = q.current.id) (members : p.current.members = q.current.members) :
    p = q := by
  obtain ⟨x, elected, mine⟩ := (isSelf_iff _ _).mp orderly.own
  obtain ⟨y, chosen, theirs⟩ := (isSelf_iff _ _).mp other.own
  rw [View.coordinator_congr members, chosen] at elected
  cases elected
  have makers : p.self.same q.self = true := by
    rw [← Member.same_left mine]
    exact theirs
  have one : i = j := by
    refine population.apart i j ?_
    rw [← Member.same_left ((traced.within i).mine p first),
      ← Member.same_right ((traced.within j).mine q second)]
    exact makers
  subst one
  exact Course.made_unique (traced.kept i) first second orderly.goesOn other.goesOn number

theorem toInt_made (traced : g.Traced population) (made : p ∈ (g.course i).made)
    (orderly : p.Orderly) : p.next.id.toInt = p.current.id.toInt + 1 ∧ 0 < p.current.id.toInt := by
  rw [nextView_id ((traced.kept i).proper p made).made,
    View.toInt_next fun last => orderly.goesOn (Or.inr last)]
  exact ⟨rfl, Int32.lt_iff_toInt_lt.mp orderly.numbered⟩

theorem founding_apart (traced : g.Traced population) {v : View} (founding : v.Founding)
    (made : p ∈ (g.course i).made) (orderly : p.Orderly) : v.id ≠ p.next.id := by
  obtain ⟨founder, rfl⟩ := founding
  intro same
  obtain ⟨next, numbered⟩ := toInt_made traced made orderly
  rw [← same, View.initial_id] at next
  have first : (1 : Int32).toInt = 1 := rfl
  omega

/-- Views of one number agree if those do that were not made in order. -/
theorem members_eq (traced : g.Traced population) (founded : g.FoundedOnce)
    (exceptions : g.ExceptionsAgree) (bound : Nat) : ∀ a ∈ g.seen, ∀ b ∈ g.seen, a.id = b.id →
      a.id.toInt.toNat < bound → a.members = b.members := by
  induction bound with
  | zero => exact fun a _ b _ _ below => absurd below (Nat.not_lt_zero _)
  | succ bound ih =>
    intro a seenA b seenB number below
    rcases traced.seen a seenA with foundingA | ⟨i, p, madeA, rfl⟩
    · rcases traced.seen b seenB with foundingB | ⟨j, q, madeB, rfl⟩
      · exact founded a seenA b seenB foundingA foundingB
      · by_cases orderly : q.Orderly
        · exact absurd number (founding_apart traced foundingA madeB orderly)
        · exact exceptions j q madeB orderly seenB a seenA number
    · by_cases orderly : p.Orderly
      · rcases traced.seen b seenB with foundingB | ⟨j, q, madeB, rfl⟩
        · exact absurd number.symm (founding_apart traced foundingB madeA orderly)
        · by_cases other : q.Orderly
          · -- Both were made of views of the number before. Those agree, so one member made both.
            have current : p.current.id = q.current.id := by
              rw [nextView_id ((traced.kept i).proper p madeA).made,
                nextView_id ((traced.kept j).proper q madeB).made] at number
              exact (Int32.add_left_inj 1).mp number
            obtain ⟨next, numbered⟩ := toInt_made traced madeA orderly
            have members := ih p.current ((traced.within i).based p madeA) q.current
              ((traced.within j).based q madeB) current (by omega)
            rw [made_once traced madeA madeB orderly other current members]
          · exact exceptions j q madeB other seenB p.next seenA number
      · exact (exceptions i p madeA orderly seenA b seenB number.symm).symm

end

/-- In every run of a group, whatever is sent arriving in any order or never: views of one number have
the same members if and only if there is one founder and nobody has another view of the number of one
that was not made in order. Only handovers, removals and departures of the coordinator are not, as
long as the numbers of the views are in use for the first time. -/
theorem agrees_iff [DecidableEq ι] (population : Population ι) (moves : List (ι × Course.Move)) :
    let g := (fresh population).after moves
    (g.Agrees ↔ g.FoundedOnce ∧ g.ExceptionsAgree) ∧
    ∀ i, ∀ p ∈ (g.course i).made, ¬ p.Orderly →
      p.change = .handover ∨ (∃ crashed, p.change = .removal crashed) ∨
        (∃ leaver, p.change = .departure leaver ∧ isSelf leaver p.current.coordinator = true) ∨
        p.current.id ≤ 0 ∨ p.current.id = View.lastId := by
  intro g
  have traced : g.Traced population := traced_after (traced_fresh population) moves
  refine ⟨⟨fun agrees => ⟨?_, ?_⟩, ?_⟩, fun i p made =>
    Production.exceptional ((traced.kept i).proper p made)⟩
  · rintro a seenA b seenB ⟨founder, rfl⟩ ⟨other, rfl⟩
    exact agrees _ seenA _ seenB rfl
  · intro i p _ _ seenP b seenB number
    exact agrees b seenB p.next seenP number
  · rintro ⟨founded, exceptions⟩ a seenA b seenB number
    exact members_eq traced founded exceptions _ a seenA b seenB number (Nat.lt_succ_self _)

/-! A group in which somebody joins while the coordinator leaves. -/

/-- Three members, the first of which can be asked for admission. -/
def ofThree : Population (Fin 3) where
  setup i :=
    let address : Net.Endpoint := { ip := .v4 0x7f000001, port := 1 }
    { config := { locators := if i = 0 then [] else [address] }
      policy := .weighted 51
      self := .peer (.ofNat (i + 1))
      channel := some { address with port := .ofNat (i + 1) } }
  apart := by decide

def accepting (view : View) : (effect : Effect) → effect.Answer
  | .joinAnswer _ => .answered (.accepted view)
  | effect => Course.granted effect

def ofFirstTwo : View := (View.initial (.peer 1)).successor (.peer 1) [.peer 2] [] []

def handedOver : View := ofFirstTwo.successor (.peer 1) [] [.peer 1] []

def letIn : View := ofFirstTwo.successor (.peer 1) [.peer 3] [] []

/-- Somebody hears from the first member. -/
def hears (payload : Payload) : Course.Move := .begin (.direct { sender := some (.peer 1), payload })

/-- The first member founds a group, the second one joins, and the third one asks to join. The first
leaves and hands over to the second, and when that is done it still lets the third one in. -/
def joinedWhileLeaving : List (Fin 3 × Course.Move) :=
  [(0, .begin .start), (1, .begin .start), (1, .resume 0 Course.granted), (0, Course.asks (.peer 2)),
    (0, .resume 0 Course.granted), (0, .resume 0 Course.granted), (1, .resume 0 (accepting ofFirstTwo)),
    (2, .begin .start), (2, .resume 0 Course.granted), (0, .begin .leave), (0, Course.asks (.peer 3)),
    (0, .resume 0 Course.granted), (0, .resume 1 Course.granted), (0, .resume 0 Course.granted),
    (0, .resume 1 Course.granted), (1, hears (.installView handedOver)),
    (2, .resume 0 (accepting letIn)), (1, hears (.installView letIn))]

theorem joinedWhileLeaving_disagrees : ¬ ((fresh ofThree).after joinedWhileLeaving).Agrees := by
  decide +kernel

end Group

end Cohort
