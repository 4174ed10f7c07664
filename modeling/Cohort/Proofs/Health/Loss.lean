import Mathlib.Algebra.Ring.Nat
import Cohort.Config
import Cohort.Health.Loss
import Cohort.Proofs.Member.Identity

/-! What a loss of members weighs, and what the two sides of a divided view make of it. The policies
measure, as long as what a view weighs is a number of 32 bits: what is lost and what is left weigh
together what the view does, and losing more weighs no less. So of two sides one judges itself to be the
wrong one unless they weigh nearly the same, and it does not matter how the lost are told, as long as they
are the same of the view's members. -/

namespace Cohort.LossPolicy

section
variable (policy : LossPolicy) (view : View)

@[simp] theorem weigh_nil : policy.weigh view [] = 0 := rfl

@[simp] theorem weigh_cons (m : Member) (rest : List Member) :
    policy.weigh view (m :: rest) = policy.measure view m + policy.weigh view rest := rfl

/-- By count some members weigh as many as they are, in 32 bits. -/
theorem weigh_count (percent : UInt8) (members : List Member) :
    (count percent).weigh view members = members.length.toUInt32 := by
  induction members with
  | nil => rfl
  | cons m rest ih =>
    rw [weigh_cons, ih, List.length_cons, Nat.add_comm]
    exact (UInt32.ofNat_add 1 rest.length).symm

/-- What some members weigh, in as many bits as it takes. -/
def burden (members : List Member) : Nat := (members.map fun m => (policy.measure view m).toNat).sum

/-- What the view weighs is a number of 32 bits. -/
def Fits : Prop := policy.burden view view.members < 2 ^ 32

instance : Decidable (policy.Fits view) := inferInstanceAs (Decidable (_ < _))

theorem toNat_weigh (members : List Member) :
    (policy.weigh view members).toNat = policy.burden view members % 2 ^ 32 := by
  induction members with
  | nil => rfl
  | cons m rest ih =>
    rw [weigh_cons, UInt32.toNat_add, ih, Nat.add_mod_mod]
    rfl

theorem burden_filter_add (members : List Member) (p : Member → Bool) :
    policy.burden view (members.filter p) + policy.burden view (members.filter (!p ·)) =
      policy.burden view members := by
  induction members with
  | nil => rfl
  | cons m rest ih =>
    unfold burden at ih ⊢
    cases chosen : p m <;> simp only [List.filter_cons, chosen, List.map_cons, List.sum_cons, Bool.not_true,
      Bool.not_false, if_true, Bool.false_eq_true, if_false] <;> omega

theorem burden_filter_le {members : List Member} {p q : Member → Bool}
    (included : ∀ m ∈ members, p m = true → q m = true) :
    policy.burden view (members.filter p) ≤ policy.burden view (members.filter q) := by
  have both : (members.filter q).filter p = members.filter p := by
    rw [List.filter_filter]
    refine List.filter_congr fun m member => ?_
    cases chosen : p m with
    | true => rw [included m member chosen]; rfl
    | false => rfl
  have parts := policy.burden_filter_add view (members.filter q) p
  rw [both] at parts
  omega

/-- Of a view that is not too heavy, whatever is lost is weighed exactly. -/
theorem toNat_weigh_filter {policy : LossPolicy} {view : View} (fits : policy.Fits view)
    (p : Member → Bool) :
    (policy.weigh view (view.members.filter p)).toNat = policy.burden view (view.members.filter p) := by
  have parts := policy.burden_filter_add view view.members p
  unfold Fits at fits
  rw [toNat_weigh, Nat.mod_eq_of_lt (by omega)]

theorem toNat_weigh_members {policy : LossPolicy} {view : View} (fits : policy.Fits view) :
    (policy.weigh view view.members).toNat = policy.burden view view.members := by
  rw [toNat_weigh, Nat.mod_eq_of_lt fits]

theorem exceeds_iff (lost total : UInt32) (percent : UInt8) :
    exceeds lost total percent = true ↔
      0 < total.toNat ∧ percent.toNat * total.toNat < 100 * lost.toNat := by
  have share : percent.toNat * total.toNat ≤ 2 ^ 8 * 2 ^ 32 :=
    Nat.mul_le_mul (Nat.le_of_lt percent.toNat_lt) (Nat.le_of_lt total.toNat_lt)
  have loss := lost.toNat_lt
  simp only [exceeds, Bool.and_eq_true, decide_eq_true_eq, gt_iff_lt, UInt32.lt_iff_toNat_lt,
    UInt64.lt_iff_toNat_lt, UInt64.toNat_mul, UInt32.toNat_toUInt64, UInt8.toNat_toUInt64]
  refine and_congr Iff.rfl ?_
  rw [Nat.mod_eq_of_lt (by omega), Nat.mod_eq_of_lt (by simp only [UInt64.reduceToNat]; omega),
    Nat.mul_comm lost.toNat]
  exact Iff.rfl

/-- A loss is judged by exact weights. -/
theorem judged_iff {policy : LossPolicy} {view : View} (fits : policy.Fits view) (lost : List Member) :
    (policy.assess view lost).partitioned = true ↔ 0 < policy.burden view view.members ∧
      policy.percent.toNat * policy.burden view view.members <
        100 * policy.burden view (view.members.filter (·.isIn lost)) := by
  rw [assess, exceeds_iff, toNat_weigh_filter fits, toNat_weigh_members fits]

end

/-- A loss that is too much remains too much when others are lost besides. -/
theorem assess_mono {policy : LossPolicy} {view : View} {few many : List Member}
    (fits : policy.Fits view)
    (included : ∀ m ∈ view.members, m.isIn few = true → m.isIn many = true)
    (tooMuch : (policy.assess view few).partitioned = true) :
    (policy.assess view many).partitioned = true := by
  have heavier := policy.burden_filter_le view included
  rw [judged_iff fits] at tooMuch ⊢
  exact ⟨tooMuch.1, by omega⟩

/-! ### Two sides -/

/-- The members of a view are on two sides, none on both, and neither side is without members. -/
structure Divides (view : View) (a b : List Member) : Prop where
  apart : ∀ m ∈ view.members, m.isIn a = !m.isIn b
  left : ∃ m ∈ view.members, m.isIn a = true
  right : ∃ m ∈ view.members, m.isIn b = true

theorem burden_sides (policy : LossPolicy) {view : View} {a b : List Member}
    (sides : Divides view a b) :
    policy.burden view (view.members.filter (·.isIn a)) +
      policy.burden view (view.members.filter (·.isIn b)) = policy.burden view view.members := by
  have others : view.members.filter (·.isIn b) = view.members.filter (!·.isIn a) :=
    List.filter_congr fun m member => by rw [sides.apart m member, Bool.not_not]
  rw [others]
  exact policy.burden_filter_add view view.members (·.isIn a)

/-- Under the default policy of a member, one side of a divided view judges itself to be the wrong
one if and only if the view weighs anything and the sides do not weigh between 49 and 51 percent of
it each. Both sides never do. The view must not weigh more than 32 bits can tell. -/
theorem some_side_judged_iff {view : View} {a b : List Member} (sides : Divides view a b)
    (fits : (weighted ({} : Config).lossThreshold).Fits view) :
    let policy := weighted ({} : Config).lossThreshold
    let total := policy.burden view view.members
    let share := policy.burden view (view.members.filter (·.isIn a))
    ((policy.assess view b).partitioned = true ∨ (policy.assess view a).partitioned = true ↔
      0 < total ∧ (100 * share < 49 * total ∨ 51 * total < 100 * share)) ∧
    ¬ ((policy.assess view b).partitioned = true ∧ (policy.assess view a).partitioned = true) := by
  intro policy total share
  have together := burden_sides policy sides
  have judges (lost : List Member) : (policy.assess view lost).partitioned = true ↔
      0 < total ∧ 51 * total < 100 * policy.burden view (view.members.filter (·.isIn lost)) :=
    judged_iff fits lost
  rw [judges, judges]
  omega

/-- A view of the lead member and of another one of some weight. -/
def leadAnd (weight : UInt8) : View :=
  ⟨1, .peer 1, [.peer 1, { Member.peer 2 with weight }], [], []⟩

theorem divides_leadAnd (weight : UInt8) : Divides (leadAnd weight) [.peer 1] [.peer 2] where
  apart m member := by
    simp only [leadAnd, List.mem_cons, List.not_mem_nil, or_false] at member
    rcases member with rfl | rfl <;> rfl
  left := ⟨.peer 1, List.mem_cons_self, by decide⟩
  right := ⟨{ Member.peer 2 with weight }, by simp [leadAnd], rfl⟩

/-- With its bonus the lead member weighs 15 of 29, and whoever loses it is on the wrong side. -/
theorem judged_leadAnd_fourteen :
    let policy := weighted ({} : Config).lossThreshold
    Divides (leadAnd 14) [.peer 1] [.peer 2] ∧
      ((policy.assess (leadAnd 14) [.peer 2]).partitioned = true ∨
        (policy.assess (leadAnd 14) [.peer 1]).partitioned = true) :=
  ⟨divides_leadAnd 14, (some_side_judged_iff (divides_leadAnd 14) (by decide)).1.mpr (by decide)⟩

/-- Two sides of the same weight both go on. -/
theorem unjudged_leadAnd_fifteen :
    let policy := weighted ({} : Config).lossThreshold
    Divides (leadAnd 15) [.peer 1] [.peer 2] ∧
      ¬ ((policy.assess (leadAnd 15) [.peer 2]).partitioned = true ∨
        (policy.assess (leadAnd 15) [.peer 1]).partitioned = true) :=
  ⟨divides_leadAnd 15, by decide⟩

/-! ### One measure -/

section
variable (policy : LossPolicy) (view : View)

end

/-- A locator of some weight, told from others by its tag. -/
def locator (tag : Nat) (weight : UInt8) : Member :=
  { Member.peer 1 with kind := .locator, instanceTag := ⟨1, tag.toUInt64⟩, weight }

/-- A view of locators, all but two of them as heavy as can be. -/
def crowd (others : Nat) : View :=
  ⟨1, locator 0 10, locator 0 10 :: locator 1 1 :: locator 2 255 ::
    (List.range others).map fun n => locator (n + 3) 255, [], []⟩

theorem tail_crowd (others : Nat) : (crowd others).members.tail =
    locator 1 1 :: locator 2 255 :: (List.range others).map fun n => locator (n + 3) 255 := rfl

theorem measure_crowd (percent : UInt8) (others tag : Nat) (weight : UInt8) :
    (weighted percent).measure (crowd others) (locator tag weight) = weight.toUInt32 := by
  have leaderless : lead? (crowd others) = none := by
    rw [lead?, List.find?_eq_none]
    intro m member
    simp only [crowd, List.mem_cons, List.mem_map] at member
    rcases member with rfl | rfl | rfl | ⟨n, -, rfl⟩ <;> simp [locator]
  simp only [measure, memberWeight, leaderless, UInt32.add_zero, locator]

theorem burden_others (percent : UInt8) (others : Nat) :
    (weighted percent).burden (crowd others) ((List.range others).map fun n => locator (n + 3) 255) =
      255 * others := by
  have all : (fun n => ((weighted percent).measure (crowd others) (locator (n + 3) 255)).toNat) =
      Function.const Nat 255 := by
    funext n
    rw [measure_crowd]
    rfl
  rw [burden, List.map_map, Function.comp_def, all, List.map_const, List.sum_replicate_nat,
    List.length_range, Nat.mul_comm]

theorem burden_cons_locator (percent : UInt8) (others tag : Nat) (weight : UInt8) (rest : List Member) :
    (weighted percent).burden (crowd others) (locator tag weight :: rest) =
      weight.toNat + (weighted percent).burden (crowd others) rest := by
  rw [burden, List.map_cons, List.sum_cons, measure_crowd, UInt8.toNat_toUInt32]
  rfl

theorem same_locator {tag tag' : Nat} {weight weight' : UInt8} (small : tag < 2 ^ 64)
    (small' : tag' < 2 ^ 64) :
    (locator tag weight).same (locator tag' weight') = decide (tag = tag') := by
  rw [Bool.eq_iff_iff, Member.same_iff, decide_eq_true_eq]
  constructor
  · intro alike
    have low := congrArg (·.instanceTag.low.toNat) alike
    have tags : tag % 2 ^ 64 = tag' % 2 ^ 64 := by simpa [locator, Member.identity] using low
    rwa [Nat.mod_eq_of_lt small, Nat.mod_eq_of_lt small'] at tags
  · rintro rfl
    rfl

theorem judged_crowd (percent : UInt8) (others : Nat) (lost : List Member) :
    ((weighted percent).assess (crowd others) lost).partitioned = true ↔
      0 < (266 + 255 * others) % 2 ^ 32 ∧ percent.toNat * ((266 + 255 * others) % 2 ^ 32) <
        100 * ((weighted percent).burden (crowd others)
          ((crowd others).members.filter (·.isIn lost)) % 2 ^ 32) := by
  have total : (weighted percent).burden (crowd others) (crowd others).members = 266 + 255 * others := by
    have members : (crowd others).members = locator 0 10 :: (crowd others).members.tail := rfl
    rw [members, tail_crowd, burden_cons_locator, burden_cons_locator, burden_cons_locator, burden_others]
    simp only [UInt8.reduceToNat]
    omega
  rw [assess, exceeds_iff, toNat_weigh, toNat_weigh, total]
  exact Iff.rfl

theorem lost_one {others : Nat} (small : others + 3 < 2 ^ 64) :
    (crowd others).members.filter (·.isIn [locator 2 255]) = [locator 2 255] := by
  have strangers : ((List.range others).map fun n => locator (n + 3) 255).filter
      (·.isIn [locator 2 255]) = [] := by
    rw [List.filter_eq_nil_iff]
    intro m member
    obtain ⟨n, within, rfl⟩ := List.mem_map.mp member
    have below := List.mem_range.mp within
    simp [Member.isIn, same_locator (show n + 3 < 2 ^ 64 by omega) (show 2 < 2 ^ 64 by decide)]
  have first : (locator 0 10).isIn [locator 2 255] = false := by decide
  have second : (locator 1 1).isIn [locator 2 255] = false := by decide
  have third : (locator 2 255).isIn [locator 2 255] = true := by decide
  simp only [crowd, List.filter_cons, first, second, third, strangers, if_true, Bool.false_eq_true,
    if_false]

theorem lost_all_but_one {others : Nat} (small : others + 3 < 2 ^ 64) :
    (crowd others).members.filter (·.isIn (crowd others).members.tail) = (crowd others).members.tail := by
  have first : (locator 0 10).isIn (crowd others).members.tail = false := by
    rw [← Bool.not_eq_true, Member.isIn_iff]
    rintro ⟨x, member, alike⟩
    simp only [tail_crowd, List.mem_cons, List.mem_map, List.mem_range] at member
    rcases member with rfl | rfl | ⟨n, within, rfl⟩
    · exact absurd alike (by decide)
    · exact absurd alike (by decide)
    · rw [same_locator (by decide) (by omega)] at alike
      simp at alike
  have tail : (crowd others).members = locator 0 10 :: (crowd others).members.tail := rfl
  rw [tail, List.filter_cons_of_neg (by simp [← tail, first]), ← tail]
  exact List.filter_eq_self.mpr fun m member => Member.isIn_of_mem member

/-- Beyond 32 bits a loss is no measure. Of this view one of the heaviest members is too much to lose, and
all but one of the members together are not. -/
theorem crowd_unmeasured :
    let policy := weighted ({} : Config).lossThreshold
    let view := crowd 16843008
    (∀ m ∈ [locator 2 255], m.identity ∈ view.members.tail.map Member.identity) ∧
      (policy.assess view [locator 2 255]).partitioned = true ∧
      (policy.assess view view.members.tail).partitioned = false := by
  intro policy view
  have one : policy.burden view (view.members.filter (·.isIn [locator 2 255])) = 255 := by
    rw [lost_one (by decide), burden_cons_locator]
    rfl
  have most : policy.burden view (view.members.filter (·.isIn view.members.tail)) = 2 ^ 32 := by
    rw [lost_all_but_one (by decide), tail_crowd, burden_cons_locator, burden_cons_locator, burden_others]
    rfl
  refine ⟨?_, ?_, ?_⟩
  · intro m member
    rw [List.mem_singleton.mp member]
    exact List.mem_map_of_mem (List.mem_cons_of_mem _ List.mem_cons_self)
  · exact (judged_crowd _ _ _).mpr (by rw [one]; decide)
  · refine Bool.eq_false_iff.mpr fun tooMuch => ?_
    have none := ((judged_crowd _ _ _).mp tooMuch).2
    rw [most] at none
    exact absurd none (by decide)

end Cohort.LossPolicy
