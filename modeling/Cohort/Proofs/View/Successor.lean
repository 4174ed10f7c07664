import Cohort.View.Basic
import Cohort.Proofs.Member.Identity

/-! Who is in the view after this one, and which number it has. -/

namespace Cohort.View

/-- The view numbers end here: the next number after the greatest is the least. -/
def lastId : Int32 := Int32.maxValue

theorem toInt_next {id : Int32} (below : id ≠ lastId) : (id + 1).toInt = id.toInt + 1 := by
  have bounds := id.toInt_lt
  have least := id.le_toInt
  have notLast : id.toInt ≠ 2147483647 := by
    intro last
    exact below (Int32.toInt_inj.mp last)
  rw [Int32.toInt_add, Int32.toInt_one, Int.bmod_eq_of_le (by omega) (by omega)]

theorem lt_next {id : Int32} (below : id ≠ lastId) : id < id + 1 := by
  rw [Int32.lt_iff_toInt_lt, toInt_next below]
  omega

example : lastId + 1 < lastId := by decide

theorem contains_iff (view : View) (m : Member) :
    view.contains m = true ↔ ∃ x ∈ view.members, m.same x = true :=
  Member.isIn_iff m view.members

theorem contains_congr {a b : Member} (alike : a.same b = true) (view : View) :
    view.contains a = view.contains b :=
  Member.isIn_congr alike view.members

section
variable (view : View) (creator m : Member) (joined departed crashed : List Member)

@[simp] theorem successor_id : (view.successor creator joined departed crashed).id = view.id + 1 := rfl

theorem crashed_successor : m.isIn (view.successor creator joined departed crashed).crashed = true ↔
    view.contains m = true ∧ m.isIn crashed = true := by
  rw [contains_iff]
  refine (Member.isIn_filter m view.members (·.isIn crashed)).trans ?_
  constructor
  · rintro ⟨x, member, gone, alike⟩
    exact ⟨⟨x, member, alike⟩, (Member.isIn_congr alike crashed).trans gone⟩
  · rintro ⟨⟨x, member, alike⟩, gone⟩
    exact ⟨x, member, (Member.isIn_congr alike crashed).symm.trans gone, alike⟩

/-- Without joiners the next view has those who neither departed nor crashed. -/
theorem contains_successor : (view.successor creator [] departed crashed).contains m = true ↔
    view.contains m = true ∧ m.isIn departed = false ∧ m.isIn crashed = false := by
  have chosen := Member.isIn_filter m view.members fun x => !x.isIn departed && !x.isIn crashed
  refine chosen.trans ?_
  rw [contains_iff]
  simp only [Bool.and_eq_true, Bool.not_eq_true']
  constructor
  · rintro ⟨x, member, ⟨stays, alive⟩, alike⟩
    exact ⟨⟨x, member, alike⟩, (Member.isIn_congr alike departed).trans stays,
      (Member.isIn_congr alike crashed).trans alive⟩
  · rintro ⟨⟨x, member, alike⟩, stays, alive⟩
    exact ⟨x, member, ⟨(Member.isIn_congr alike departed).symm.trans stays,
      (Member.isIn_congr alike crashed).symm.trans alive⟩, alike⟩

theorem mem_enrol {id : Int32} {members : List Member} {joiner x : Member} (member : x ∈ members) :
    x ∈ enrol id members joiner := by
  unfold enrol
  split
  · exact member
  · exact List.mem_append_left _ member

theorem mem_foldl_enrol {id : Int32} {members : List Member} {x : Member} (member : x ∈ members)
    (joiners : List Member) : x ∈ joiners.foldl (enrol id) members := by
  induction joiners generalizing members with
  | nil => exact member
  | cons joiner rest ih => exact ih (mem_enrol member)

/-- Whoever neither departed nor crashed is still there, whoever joins. -/
theorem mem_successor {view : View} {creator x : Member} {joined departed crashed : List Member}
    (member : x ∈ view.members) (stays : x.isIn departed = false) (alive : x.isIn crashed = false) :
    x ∈ (view.successor creator joined departed crashed).members :=
  mem_foldl_enrol (List.mem_filter.mpr ⟨member, by simp [stays, alive]⟩) joined

/-- An admission leaves everybody in. -/
theorem contains_admission {view : View} {creator joiner m : Member} (present : view.contains m = true) :
    (view.successor creator [joiner] [] []).contains m = true := by
  obtain ⟨x, member, alike⟩ := (contains_iff view m).mp present
  exact (contains_iff _ m).mpr ⟨x, mem_successor member rfl rfl, alike⟩

end

end Cohort.View
