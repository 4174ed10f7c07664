import Mathlib.Algebra.Group.Nat.Defs
import Cohort.Proofs.View.Coordinator
import Cohort.Proofs.View.Distinct

/-! Views that grew out of a founder's view, change by change. However its members came and went, such a
view has nobody twice, lists those who were taken in earlier first, and so is coordinated by the first
preferred member of its list, or else by the first that may coordinate. -/

namespace Cohort.View

/-- A view that a founder's view has become after some number of changes. -/
inductive Grown : Nat → View → Prop where
  | initial (founder : Member) : Grown 0 (initial founder)
  | successor {changes : Nat} {view : View} (grown : Grown changes view) (creator : Member)
      (joined departed crashed : List Member) :
      Grown (changes + 1) (view.successor creator joined departed crashed)

/-- Nobody is twice in a view, and its members are in the order in which views took them in, none of them
later than this one. -/
structure Shaped (view : View) : Prop where
  distinct : view.Distinct
  stamped : ∀ m ∈ view.members, 1 ≤ m.viewId ∧ m.viewId ≤ view.id
  ordered : view.members.Pairwise fun a b => a.viewId ≤ b.viewId

/-- Whether a member stays when some depart and some crash. -/
def stays (departed crashed : List Member) (m : Member) : Bool :=
  !m.isIn departed && !m.isIn crashed

theorem stays_congr {a b : Member} (alike : a.same b = true) (departed crashed : List Member) :
    stays departed crashed a = stays departed crashed b := by
  simp [stays, Member.isIn_congr alike]

/-- Somebody of incarnation `a` stands before somebody of incarnation `b` in a view. -/
def Before (view : View) (a b : Member) : Prop :=
  ∃ x y, [x, y].Sublist view.members ∧ x.same a = true ∧ y.same b = true

/-! ### Joiners -/

/-- Joiners go behind those who are there, each under the new number and none who is there already. -/
theorem foldl_enrol (id : Int32) (joined members : List Member) :
    ∃ newcomers, joined.foldl (enrol id) members = members ++ newcomers ∧
      (∀ x ∈ newcomers, x.isIn members = false ∧ ∃ joiner ∈ joined, x = joiner.withViewId id) ∧
      newcomers.Pairwise fun a b => a.same b = false := by
  induction joined generalizing members with
  | nil => exact ⟨[], by simp, by simp, .nil⟩
  | cons joiner rest ih =>
    cases known : joiner.isIn members with
    | true =>
      obtain ⟨newcomers, same, joins, apart⟩ := ih members
      refine ⟨newcomers, by simp [enrol, known, same], ?_, apart⟩
      intro x member
      obtain ⟨unknown, joiner, among, stamped⟩ := joins x member
      exact ⟨unknown, joiner, List.mem_cons_of_mem _ among, stamped⟩
    | false =>
      obtain ⟨newcomers, same, joins, apart⟩ := ih (members ++ [joiner.withViewId id])
      have isIn : ∀ x : Member, x.isIn (members ++ [joiner.withViewId id]) =
          (x.isIn members || x.same (joiner.withViewId id)) := by
        intro x
        simp [Member.isIn]
      refine ⟨joiner.withViewId id :: newcomers, ?_, ?_, ?_⟩
      · simp [enrol, known, same]
      · intro x member
        rcases List.mem_cons.mp member with rfl | later
        · exact ⟨known, joiner, List.mem_cons_self, rfl⟩
        · obtain ⟨unknown, other, among, stamped⟩ := joins x later
          rw [isIn, Bool.or_eq_false_iff] at unknown
          exact ⟨unknown.1, other, List.mem_cons_of_mem _ among, stamped⟩
      · apply List.pairwise_cons.mpr
        constructor
        · intro x later
          have unknown := (joins x later).1
          rw [isIn, Bool.or_eq_false_iff] at unknown
          rw [Member.same_comm]
          exact unknown.2
        · exact apart

section
variable {view : View} (creator : Member) (joined departed crashed : List Member)

/-- The next view has those who stay, as they are and in their order, and then the newcomers. -/
theorem members_successor (view : View) : ∃ newcomers,
    (view.successor creator joined departed crashed).members =
      view.members.filter (stays departed crashed) ++ newcomers ∧
    (∀ x ∈ newcomers, x.isIn (view.members.filter (stays departed crashed)) = false ∧
      ∃ joiner ∈ joined, x = joiner.withViewId (view.id + 1)) ∧
    newcomers.Pairwise fun a b => a.same b = false :=
  foldl_enrol (view.id + 1) joined (view.members.filter (stays departed crashed))

theorem shaped_successor (shaped : view.Shaped) (below : view.id ≠ lastId) (begun : 1 ≤ view.id) :
    (view.successor creator joined departed crashed).Shaped := by
  obtain ⟨newcomers, members, joins, apart⟩ := members_successor creator joined departed crashed view
  have later : view.id < view.id + 1 := lt_next below
  have stamp : ∀ x ∈ newcomers, x.viewId = view.id + 1 := by
    intro x member
    obtain ⟨-, joiner, -, rfl⟩ := joins x member
    rfl
  have old : ∀ m ∈ view.members.filter (stays departed crashed), 1 ≤ m.viewId ∧ m.viewId ≤ view.id :=
    fun m member => shaped.stamped m (List.mem_filter.mp member).1
  constructor
  · unfold Distinct
    rw [members]
    apply List.pairwise_append.mpr
    refine ⟨shaped.distinct.filter _, apart, ?_⟩
    intro a member b newcomer
    rw [Member.same_comm]
    refine Bool.eq_false_iff.mpr fun alike => ?_
    have known := (Member.isIn_iff b _).mpr ⟨a, member, alike⟩
    rw [(joins b newcomer).1] at known
    contradiction
  · intro m member
    rw [members] at member
    rw [successor_id]
    rcases List.mem_append.mp member with stayed | joining
    · obtain ⟨least, most⟩ := old m stayed
      exact ⟨least, Int32.le_trans most (Int32.le_of_lt later)⟩
    · rw [stamp m joining]
      exact ⟨Int32.le_trans begun (Int32.le_of_lt later), Int32.le_refl _⟩
  · rw [members]
    apply List.pairwise_append.mpr
    refine ⟨shaped.ordered.filter _, ?_, ?_⟩
    · apply List.pairwise_of_forall_mem_list
      intro a first b second
      rw [stamp a first, stamp b second]
      exact Int32.le_refl _
    · intro a member b newcomer
      rw [stamp b newcomer]
      exact Int32.le_trans (old a member).2 (Int32.le_of_lt later)

/-! ### Order -/

/-- Those who were there and stay are in the next view what they were in this one. -/
theorem stayed_successor : (view.successor creator joined departed crashed).members.filter
      (fun m => view.contains m && stays departed crashed m) =
    view.members.filter (stays departed crashed) := by
  obtain ⟨newcomers, members, joins, -⟩ := members_successor creator joined departed crashed view
  have none : newcomers.filter (fun m => view.contains m && stays departed crashed m) = [] := by
    apply List.filter_eq_nil_iff.mpr
    intro x member stayed
    obtain ⟨present, remains⟩ := Bool.and_eq_true_iff.mp stayed
    obtain ⟨y, there, alike⟩ := (contains_iff view x).mp present
    have left : x.isIn (view.members.filter (stays departed crashed)) = true := by
      refine (Member.isIn_filter x _ _).mpr ⟨y, there, ?_, alike⟩
      rw [← stays_congr alike]
      exact remains
    rw [(joins x member).1] at left
    contradiction
  rw [members, List.filter_append, none, List.append_nil]
  apply List.filter_eq_self.mpr
  intro m member
  obtain ⟨there, remains⟩ := List.mem_filter.mp member
  exact Bool.and_eq_true_iff.mpr ⟨Member.isIn_of_mem there, remains⟩

/-- Two members that both stay keep their order. -/
theorem before_successor_iff {a b : Member} (first : view.contains a = true)
    (second : view.contains b = true) (stays_a : stays departed crashed a = true)
    (stays_b : stays departed crashed b = true) :
    (view.successor creator joined departed crashed).Before a b ↔ view.Before a b := by
  constructor
  · rintro ⟨x, y, both, named_x, named_y⟩
    have kept := both.filter fun m => view.contains m && stays departed crashed m
    have chosen_x : (view.contains x && stays departed crashed x) = true := by
      rw [contains_congr named_x, first, stays_congr named_x, stays_a]
      rfl
    have chosen_y : (view.contains y && stays departed crashed y) = true := by
      rw [contains_congr named_y, second, stays_congr named_y, stays_b]
      rfl
    rw [stayed_successor] at kept
    simp only [List.filter_cons, chosen_x, chosen_y, if_true, List.filter_nil] at kept
    exact ⟨x, y, kept.trans List.filter_sublist, named_x, named_y⟩
  · rintro ⟨x, y, both, named_x, named_y⟩
    have kept := both.filter (stays departed crashed)
    have chosen_x : stays departed crashed x = true := (stays_congr named_x _ _).trans stays_a
    have chosen_y : stays departed crashed y = true := (stays_congr named_y _ _).trans stays_b
    simp only [List.filter_cons, chosen_x, chosen_y, if_true, List.filter_nil] at kept
    rw [← stayed_successor creator joined] at kept
    exact ⟨x, y, kept.trans List.filter_sublist, named_x, named_y⟩

/-! ### Coordinators -/

/-- Where those who were taken in earlier come first, the foremost is the first preferred one, or else the
first of all. -/
theorem foremost_of_ordered {members : List Member}
    (ordered : members.Pairwise fun a b => a.viewId ≤ b.viewId) :
    foremost members = (members.find? (·.preferred)).or members.head? := by
  induction members with
  | nil => rfl
  | cons m rest ih =>
    obtain ⟨before, later⟩ := List.pairwise_cons.mp ordered
    have younger : ∀ x ∈ rest, ¬ x.viewId < m.viewId := fun x member =>
      Int32.not_lt.mpr (before x member)
    have next := ih later
    unfold foremost
    cases first : foremost rest with
    | none =>
      rw [foremost_eq_none_iff.mp first]
      cases preferred : m.preferred <;> simp [preferred]
    | some best =>
      have member := younger best (mem_of_foremost first)
      rw [first] at next
      cases preferred : m.preferred with
      | true => cases other : best.preferred <;> simp [outranks, preferred, other, member]
      | false =>
        cases found : rest.find? (·.preferred) with
        | some chosen =>
          have same : best = chosen := by simpa [found] using next
          have liked : chosen.preferred = true := by simpa using List.find?_some found
          simp [outranks, preferred, found, same, liked]
        | none =>
          have unliked : best.preferred = false := by
            have all := List.find?_eq_none.mp found best (mem_of_foremost first)
            simpa using all
          simp [outranks, preferred, found, unliked, member]

/-- The first preferred member of a list, else the first that may coordinate, else the first. -/
def firstOf (members : List Member) : Option Member :=
  ((members.find? (·.preferred)).or (members.find? (·.mayCoordinate))).or members.head?

theorem coordinator_of_ordered (ordered : view.members.Pairwise fun a b => a.viewId ≤ b.viewId) :
    view.coordinator = firstOf view.members := by
  have all : view.members.filter (!·.isIn []) = view.members := List.filter_eq_self.mpr fun _ _ => rfl
  have chosen : (view.members.filter (·.mayCoordinate)).find? (·.preferred) =
      view.members.find? (·.preferred) := by
    rw [List.find?_filter]
    congr 1
    funext m
    cases preferred : m.preferred with
    | false => simp
    | true => simp [Member.mayCoordinate, m.preferred_may preferred]
  simp only [coordinator, coordinatorWithout, firstOf, all]
  rw [foremost_of_ordered (ordered.filter _), chosen, List.head?_filter]

theorem find?_filter_of_some {members : List Member} {p q : Member → Bool} {m : Member}
    (found : members.find? p = some m) (chosen : q m = true) : (members.filter q).find? p = some m := by
  obtain ⟨holds, before, after, rfl, none⟩ := List.find?_eq_some_iff_append.mp found
  rw [List.filter_append, List.filter_cons, if_pos chosen]
  refine List.find?_eq_some_iff_append.mpr ⟨holds, before.filter q, after.filter q, rfl, ?_⟩
  intro x member
  exact none x (List.mem_filter.mp member).1

/-- Whoever is first among members, and may coordinate, remains so when others go and some come in behind
who are not preferred. -/
theorem firstOf_filter_append {members newcomers : List Member} {p : Member → Bool} {leader : Member}
    (first : firstOf members = some leader) (able : leader.mayCoordinate = true) (kept : p leader = true)
    (unpreferred : ∀ m ∈ newcomers, m.preferred = false) :
    firstOf (members.filter p ++ newcomers) = some leader := by
  unfold firstOf at first ⊢
  rw [List.find?_append, List.find?_append]
  cases preferred : members.find? (·.preferred) with
  | some chosen =>
    obtain rfl : chosen = leader := by simpa [preferred] using first
    rw [find?_filter_of_some preferred kept]
    simp
  | none =>
    have nobody : ∀ m ∈ members, m.preferred = false := by
      simpa using List.find?_eq_none.mp preferred
    have old : (members.filter p).find? (·.preferred) = none := by
      apply List.find?_eq_none.mpr
      intro m member
      simp [nobody m (List.mem_filter.mp member).1]
    have new : newcomers.find? (·.preferred) = none := by
      apply List.find?_eq_none.mpr
      intro m member
      simp [unpreferred m member]
    have may : members.find? (·.mayCoordinate) = some leader := by
      cases found : members.find? (·.mayCoordinate) with
      | some chosen =>
        simpa [preferred, found] using first
      | none =>
        have head : members.head? = some leader := by simpa [preferred, found] using first
        have unable := List.find?_eq_none.mp found leader (List.mem_of_mem_head? head)
        contradiction
    rw [old, new, find?_filter_of_some may kept]
    simp

/-! ### Growth -/

/-- As long as the numbers last, a grown view has one for each change, and its shape. -/
theorem Grown.shaped {changes : Nat} {view : View} (grown : Grown changes view)
    (few : changes < 2 ^ 31 - 1) : view.id.toInt = changes + 1 ∧ view.Shaped := by
  induction grown with
  | initial founder =>
    refine ⟨rfl, ?_, ?_, ?_⟩
    · exact List.pairwise_singleton _ _
    · intro m member
      rw [List.mem_singleton.mp member]
      exact ⟨Int32.le_refl _, Int32.le_refl _⟩
    · exact List.pairwise_singleton _ _
  | @successor changes view grown creator joined departed crashed ih =>
    obtain ⟨number, shaped⟩ := ih (by omega)
    have below : view.id ≠ lastId := by
      rintro last
      have most : lastId.toInt = 2147483647 := rfl
      rw [last, most] at number
      omega
    have begun : 1 ≤ view.id := by
      rw [Int32.le_iff_toInt_le, number, Int32.toInt_one]
      omega
    constructor
    · rw [successor_id, toInt_next below, number]
      push_cast
      rfl
    · exact shaped_successor creator joined departed crashed shaped below begun

/-- A view that grew out of a founder's view has nobody twice, and lists its members in the order in which
views took them in. The first preferred one coordinates it, or else the first that may coordinate, or else
the first. In the next view those who stay keep their order; and if somebody who may coordinate stays and
leads, then nobody takes over unless a preferred member joins. -/
theorem grown_shape {changes : Nat} {view : View} (grown : Grown changes view)
    (few : changes < 2 ^ 31 - 1) :
    view.Shaped ∧ view.coordinator = firstOf view.members ∧
      ∀ creator joined departed crashed, changes + 1 < 2 ^ 31 - 1 →
        let next := view.successor creator joined departed crashed
        (∀ a b, view.contains a = true → view.contains b = true → stays departed crashed a = true →
          stays departed crashed b = true → (next.Before a b ↔ view.Before a b)) ∧
        ∀ leader, view.coordinator = some leader → leader.mayCoordinate = true →
          stays departed crashed leader = true → (∀ joiner ∈ joined, joiner.preferred = false) →
          next.coordinator = some leader := by
  have shaped := (grown.shaped few).2
  have led := coordinator_of_ordered shaped.ordered
  refine ⟨shaped, led, ?_⟩
  intro creator joined departed crashed more next
  constructor
  · intro a b first second stays_a stays_b
    exact before_successor_iff creator joined departed crashed first second stays_a stays_b
  · intro leader leads able remains unpreferred
    obtain ⟨newcomers, members, joins, -⟩ :=
      members_successor creator joined departed crashed view
    have shape := ((grown.successor creator joined departed crashed).shaped more).2
    rw [coordinator_of_ordered shape.ordered, members]
    apply firstOf_filter_append (led ▸ leads) able remains
    intro m newcomer
    obtain ⟨-, joiner, among, rfl⟩ := joins m newcomer
    exact unpreferred joiner among

end

/-- The first of three left and came back with a fourth. -/
def regrown : View :=
  ((initial (.peer 1)).successor (.peer 1) [.peer 2, .peer 2, .peer 3] [] []).successor (.peer 2)
    [.peer 1, .peer 4] [.peer 1] []

/-- The second leads it, and goes on when the third crashes and joins again with a fifth. -/
theorem regrown_shape :
    let second := (Member.peer 2).withViewId 2
    let next := regrown.successor second [.peer 5, .peer 3] [] [.peer 3]
    regrown.Shaped ∧ regrown.coordinator = some second ∧
      (next.Before second (.peer 1) ↔ regrown.Before second (.peer 1)) ∧
        next.coordinator = some second := by
  intro second next
  have grown : Grown 2 regrown := .successor (.successor (.initial _) _ _ _ _) _ _ _ _
  obtain ⟨shaped, led, steps⟩ := grown_shape grown (by decide)
  have leads : regrown.coordinator = some second := led.trans (by decide)
  obtain ⟨order, remains⟩ := steps second [.peer 5, .peer 3] [] [.peer 3] (by decide)
  refine ⟨shaped, leads, ?_, ?_⟩
  · exact order second (.peer 1) (by decide) (by decide) (by decide) (by decide)
  · exact remains second leads (by decide) (by decide) (by decide)

end Cohort.View
