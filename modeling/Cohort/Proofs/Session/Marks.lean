import Cohort.Proofs.Session.Window

/-! The window after any marks: which numbers are fresh follows from which were marked, in whatever order
and at whatever distances. Words wrap and shift by the distance modulo their width, but nothing here
depends on that: arithmetic that gives no result out of its range finds the same. -/

namespace Cohort.ReplayWindow

/-! ### Arithmetic that keeps its range -/

/-- A difference that is not negative. -/
def difference? (a b : UInt64) : Option UInt64 := if b ≤ a then some (a - b) else none

/-- A shift by less than the width of the word. -/
def shift? (bits distance : UInt64) : Option UInt64 :=
  if distance.toNat < 64 then some (bits <<< distance) else none

/-- Whether a number may be accepted, if all that is computed for the answer keeps its range. -/
def isFresh? (w : ReplayWindow) (number : UInt64) : Option Bool :=
  match w.highest with
  | none => some true
  | some highest =>
    if number > highest then some true
    else do
      let age ← difference? highest number
      if age < width then return (w.bitmap &&& (← shift? 1 age)) == 0
      else return false

/-- Marks a number, if all that is computed for it keeps its range. -/
def mark? (w : ReplayWindow) (number : UInt64) : Option ReplayWindow :=
  match w.highest with
  | none => some ⟨some number, 1⟩
  | some highest =>
    if number > highest then do
      let distance ← difference? number highest
      let kept ← if distance ≥ width then some 0 else shift? w.bitmap distance
      return ⟨some number, kept ||| 1⟩
    else do
      let age ← difference? highest number
      if age < width then return { w with bitmap := w.bitmap ||| (← shift? 1 age) }
      else return w

theorem difference?_of_le {a b : UInt64} (below : b ≤ a) : difference? a b = some (a - b) :=
  if_pos below

theorem shift?_of_lt {distance : UInt64} (short : distance < width) (bits : UInt64) :
    shift? bits distance = some (bits <<< distance) :=
  if_pos short

theorem isFresh?_eq (w : ReplayWindow) (number : UInt64) : w.isFresh? number = some (w.isFresh number) := by
  unfold isFresh? isFresh
  cases w.highest with
  | none => rfl
  | some highest =>
    dsimp only
    split
    · rfl
    · rename_i within
      rw [difference?_of_le (UInt64.not_lt.mp within), Option.bind_eq_bind, Option.bind_some]
      split
      · rename_i young
        rw [shift?_of_lt young, decide_eq_true young]
        rfl
      · rename_i old
        rw [decide_eq_false old]
        rfl

theorem mark?_eq (w : ReplayWindow) (number : UInt64) : w.mark? number = some (w.mark number) := by
  unfold mark? mark
  cases w.highest with
  | none => rfl
  | some highest =>
    dsimp only
    split
    · rename_i beyond
      rw [difference?_of_le (UInt64.le_of_lt beyond), Option.bind_eq_bind, Option.bind_some]
      split
      · rfl
      · rename_i near
        rw [shift?_of_lt (UInt64.not_le.mp near)]
        rfl
    · rename_i within
      rw [difference?_of_le (UInt64.not_lt.mp within), Option.bind_eq_bind, Option.bind_some]
      split
      · rename_i young
        rw [shift?_of_lt young]
        rfl
      · rfl

/-! ### Marks one after the other -/

theorem marks?_eq (w : ReplayWindow) (marked : List UInt64) :
    marked.foldlM mark? w = some (marked.foldl mark w) := by
  induction marked generalizing w with
  | nil => rfl
  | cons number rest ih =>
    rw [List.foldlM_cons, mark?_eq, Option.bind_eq_bind, Option.bind_some, ih]
    rfl

theorem recalls_marks {w : ReplayWindow} {known : UInt64 → Prop} (recalls : w.Recalls known)
    (marked : List UInt64) : (marked.foldl mark w).Recalls fun n => n ∈ marked ∨ known n := by
  induction marked generalizing w known with
  | nil => exact recalls.congr fun n => by simp
  | cons number rest ih =>
    refine (ih (recalls_mark recalls number)).congr fun n => ?_
    rw [List.mem_cons, or_left_comm, or_assoc]

theorem Recalls.greatest {w : ReplayWindow} {marked : UInt64 → Prop} (recalls : w.Recalls marked)
    {number : UInt64} (seen : marked number) : ∃ highest, marked highest ∧ ∀ m, marked m → m ≤ highest := by
  unfold Recalls at recalls
  cases top : w.highest with
  | none =>
    rw [top] at recalls
    exact absurd seen (recalls number)
  | some highest =>
    rw [top] at recalls
    exact ⟨highest, recalls.1, recalls.2.1⟩

/-- After any marks on a fresh window a number is fresh exactly if nothing was marked, or it is above all
that was marked, or it was not marked itself and is fewer than 64 below the greatest that was. No
difference that is computed for the marks or for the answer is negative, and no word is shifted by its
width or more. -/
theorem fresh_after_marks (marked : List UInt64) (number : UInt64) :
    let w : ReplayWindow := marked.foldl mark {}
    marked.foldlM mark? {} = some w ∧ w.isFresh? number = some (w.isFresh number) ∧
    (w.isFresh number = true ↔ marked = [] ∨ (∀ m ∈ marked, m < number) ∨
      ∃ greatest ∈ marked, (∀ m ∈ marked, m ≤ greatest) ∧
        number ≤ greatest ∧ greatest.toNat - number.toNat < 64 ∧ number ∉ marked) := by
  intro w
  have recalls : w.Recalls (· ∈ marked) :=
    (recalls_marks recalls_fresh marked).congr fun n => by rw [or_false]
  refine ⟨marks?_eq {} marked, isFresh?_eq w number, ?_⟩
  rw [isFresh_iff recalls]
  constructor
  · rintro ⟨unmarked, near⟩
    by_cases above : ∀ m ∈ marked, m < number
    · exact Or.inr (Or.inl above)
    · obtain ⟨m, notBelow⟩ := not_forall.mp above
      obtain ⟨seen, notBelow⟩ := Classical.not_imp.mp notBelow
      obtain ⟨greatest, known, bound⟩ := recalls.greatest seen
      have within : number ≤ greatest := UInt64.le_trans (UInt64.not_lt.mp notBelow) (bound m seen)
      have close := near greatest known
      exact Or.inr (Or.inr ⟨greatest, known, bound, within, by omega, unmarked⟩)
  · rintro (rfl | above | ⟨greatest, known, bound, within, close, unmarked⟩)
    · exact ⟨List.not_mem_nil, fun m seen => absurd seen List.not_mem_nil⟩
    · refine ⟨fun seen => UInt64.lt_irrefl _ (above number seen), ?_⟩
      intro m seen
      have below : m.toNat < number.toNat := above m seen
      omega
    · refine ⟨unmarked, ?_⟩
      intro m seen
      have below : m.toNat ≤ greatest.toNat := bound m seen
      omega

/-- The number that is 63 below the greatest can still be told, the one below it not any more. -/
example :
    let w : ReplayWindow := [5, 70, 7].foldl mark {}
    w.isFresh 6 = false ∧ w.isFresh 7 = false ∧ w.isFresh 8 = true ∧
      ([5, 69].foldl mark {} : ReplayWindow).isFresh 6 = true := by decide

end Cohort.ReplayWindow
