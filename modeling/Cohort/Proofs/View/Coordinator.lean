import Cohort.Proofs.View.Successor

/-! Who coordinates a view. -/

namespace Cohort.View

theorem mem_of_foremost {members : List Member} {best : Member} (first : foremost members = some best) :
    best ∈ members := by
  induction members generalizing best with
  | nil => contradiction
  | cons m rest ih =>
    unfold foremost at first
    cases later : foremost rest with
    | none =>
      rw [later] at first
      exact Option.some.inj first ▸ List.mem_cons_self
    | some other =>
      rw [later] at first
      dsimp only at first
      split at first
      · exact List.mem_cons_of_mem m (Option.some.inj first ▸ ih later)
      · exact Option.some.inj first ▸ List.mem_cons_self

/-! ### Who is foremost -/

/-- Whoever outranks somebody outranks everyone in between, or else is outranked in turn. -/
theorem outranks_or_outranks {a b : Member} (above : outranks a b = true) (m : Member) :
    outranks a m = true ∨ outranks m b = true := by
  simp only [outranks, Int32.lt_iff_toInt_lt] at *
  by_cases same : a.preferred = m.preferred
  · by_cases alike : m.preferred = b.preferred
    · simp only [same, alike, if_true, decide_eq_true_eq] at above ⊢
      omega
    · simp_all
  · cases preferred : a.preferred <;> cases other : m.preferred <;> simp_all

theorem outranks_irrefl (m : Member) : outranks m m = false := by
  simp [outranks, Int32.lt_irrefl]

theorem outranks_asymm {a b : Member} (above : outranks a b = true) : outranks b a = false := by
  unfold outranks at above ⊢
  split at above
  · rename_i same
    simp only [decide_eq_true_eq, Int32.lt_iff_toInt_lt] at above
    simp only [same, if_true, decide_eq_false_iff_not, Int32.lt_iff_toInt_lt]
    omega
  · simp_all

theorem foremost_eq_none_iff {members : List Member} : foremost members = none ↔ members = [] := by
  cases members with
  | nil => simp [foremost]
  | cons m rest =>
    simp only [foremost, reduceCtorEq, iff_false]
    split
    · simp
    · split <;> simp

theorem outranks_foremost {members : List Member} {best m : Member}
    (first : foremost members = some best) (member : m ∈ members) : outranks m best = false := by
  induction members generalizing best with
  | nil => contradiction
  | cons x rest ih =>
    unfold foremost at first
    cases later : foremost rest with
    | none =>
      rw [later] at first
      cases first
      rw [foremost_eq_none_iff.mp later, List.mem_singleton] at member
      rw [member, outranks_irrefl]
    | some other =>
      rw [later] at first
      dsimp only at first
      split at first
      · rename_i above
        cases first
        rcases List.mem_cons.mp member with rfl | further
        · exact outranks_asymm above
        · exact ih later further
      · rename_i notAbove
        cases first
        rcases List.mem_cons.mp member with rfl | further
        · exact outranks_irrefl m
        · refine Bool.eq_false_iff.mpr fun above => ?_
          rcases outranks_or_outranks above other with beats | beats
          · rw [ih later further] at beats
            contradiction
          · exact notAbove beats

/-- Whoever is foremost remains so when some of the others go. -/
theorem foremost_filter {members : List Member} {best : Member} (p : Member → Bool)
    (first : foremost members = some best) (kept : p best = true) :
    foremost (members.filter p) = some best := by
  induction members generalizing best with
  | nil => contradiction
  | cons m rest ih =>
    unfold foremost at first
    cases later : foremost rest with
    | none =>
      rw [later] at first
      cases first
      rw [foremost_eq_none_iff.mp later]
      simp [kept, foremost]
    | some other =>
      rw [later] at first
      dsimp only at first
      split at first
      · rename_i above
        cases first
        have remains := ih later kept
        cases chosen : p m with
        | false => simpa [chosen] using remains
        | true => simp [chosen, foremost, remains, above]
      · rename_i notAbove
        cases first
        simp only [List.filter_cons, kept, if_true, foremost]
        cases left : foremost (rest.filter p) with
        | none => rfl
        | some next =>
          have member := (List.mem_filter.mp (mem_of_foremost left)).1
          have below : ¬ outranks next m = true := by
            intro above
            rcases outranks_or_outranks above other with beats | beats
            · rw [outranks_foremost later member] at beats
              contradiction
            · exact notAbove beats
          simp [below]

/-! ### Who coordinates -/

/-- Once some have left, one of the others coordinates. -/
theorem coordinatorWithout_mem {view : View} {gone : List Member} {m : Member}
    (elected : view.coordinatorWithout gone = some m) : m ∈ view.members ∧ m.isIn gone = false := by
  have left : m ∈ view.members.filter (!·.isIn gone) := by
    unfold coordinatorWithout at elected
    rcases Option.or_eq_some_iff.mp elected with best | ⟨-, first⟩
    · exact (List.mem_filter.mp (mem_of_foremost best)).1
    · exact List.mem_of_mem_head? first
  simpa using left

/-- It does not matter how those who left are described, nor whether others are counted with them. -/
theorem coordinatorWithout_congr {view : View} {gone lost : List Member}
    (alike : ∀ m ∈ view.members, m.isIn gone = m.isIn lost) :
    view.coordinatorWithout gone = view.coordinatorWithout lost := by
  have left : view.members.filter (!·.isIn gone) = view.members.filter (!·.isIn lost) :=
    List.filter_congr fun m member => by rw [alike m member]
  unfold coordinatorWithout
  rw [left]

theorem coordinatorWithout_isSome {view : View} {gone : List Member} {m : Member}
    (member : m ∈ view.members) (left : m.isIn gone = false) :
    (view.coordinatorWithout gone).isSome = true := by
  have remains : m ∈ view.members.filter (!·.isIn gone) := List.mem_filter.mpr ⟨member, by simp [left]⟩
  unfold coordinatorWithout
  rw [Option.isSome_or, Bool.or_eq_true]
  exact Or.inr (List.isSome_head?.mpr (List.ne_nil_of_mem remains))

/-- Whoever leads those who are left goes on leading when some of the others go. -/
theorem lead_filter {left : List Member} {next : Member} (p : Member → Bool)
    (leads : (foremost (left.filter (·.mayCoordinate))).or left.head? = some next)
    (kept : p next = true) :
    (foremost ((left.filter p).filter (·.mayCoordinate))).or (left.filter p).head? = some next := by
  have swapped : (left.filter p).filter (·.mayCoordinate) = (left.filter (·.mayCoordinate)).filter p := by
    rw [List.filter_filter, List.filter_filter]
    exact List.filter_congr fun m _ => Bool.and_comm _ _
  rw [swapped]
  rcases Option.or_eq_some_iff.mp leads with best | ⟨nobody, first⟩
  · rw [foremost_filter p best kept]
    rfl
  · rw [foremost_eq_none_iff.mp nobody]
    cases left with
    | nil => contradiction
    | cons m rest =>
      cases first
      simp [kept, foremost]

/-- If another member than `self` coordinates once many have gone, then another one does as well when
fewer of them have: whoever stays besides can only go before the one who coordinated. -/
theorem coordinatorWithout_of_fewer {view : View} {gone fewer : List Member} {self leader : Member}
    (leads : view.coordinatorWithout gone = some leader) (other : leader.same self = false)
    (stays : self.isIn gone = false)
    (included : ∀ m ∈ view.members, m.isIn fewer = true → m.isIn gone = true) :
    ∃ next, view.coordinatorWithout fewer = some next ∧ next.same self = false := by
  obtain ⟨present, remains⟩ := coordinatorWithout_mem leads
  have remaining : leader.isIn fewer = false := by
    refine Bool.eq_false_iff.mpr fun lost => ?_
    rw [included leader present lost] at remains
    contradiction
  obtain ⟨next, elected⟩ := Option.isSome_iff_exists.mp (coordinatorWithout_isSome present remaining)
  refine ⟨next, elected, Bool.eq_false_iff.mpr fun own => ?_⟩
  have notGone : next.isIn gone = false := by rw [Member.isIn_congr own gone, stays]
  have fromFewer : view.members.filter (!·.isIn gone) =
      (view.members.filter (!·.isIn fewer)).filter (!·.isIn gone) := by
    rw [List.filter_filter]
    refine List.filter_congr fun m member => ?_
    cases lost : m.isIn fewer with
    | false => simp
    | true => simp [included m member lost]
  have led : view.coordinatorWithout gone = some next := by
    unfold coordinatorWithout
    rw [fromFewer]
    exact lead_filter (!·.isIn gone) elected (by simp [notGone])
  rw [leads] at led
  cases led
  rw [other] at own
  contradiction

end Cohort.View
