import Cohort.Proofs.Schedule.Steps
import Mathlib.Data.List.Nodup

/-! Runs of a schedule, over any number of steps. What a log says was armed and has neither run nor
been cancelled is what is pending in the end; a task leaves once; and as long as the clock does not
go back, what runs at one reading runs in order. -/

namespace Cohort.Schedule

variable {α : Type} {s : Schedule α}

theorem Coherent.eq_of_id (coherent : s.Coherent) {a b : Armed α} (first : a ∈ s.stored)
    (second : b ∈ s.stored) (same : a.id = b.id) : a = b :=
  List.inj_on_of_nodup_map coherent.distinct first second same

theorem Coherent.exists_waiting (coherent : s.Coherent) {id : Nat} (pending : s.isPending id = true) :
    ∃ t ∈ s.waiting, t.id = id := by
  obtain ⟨t, member, rfl⟩ := coherent.kept id pending
  exact ⟨t, mem_waiting.mpr ⟨member, pending⟩, rfl⟩

theorem lt_of_waiting {t : Armed α} (there : t ∈ s.waiting) : t.id < s.nextId :=
  lt_of_isPending (mem_waiting.mp there).2

/-! ### Tasks that have left -/

/-- Something that ends the wait of the task with this number. -/
def Happening.Settles (id : Nat) : Happening α → Prop
  | .ran task => task.id = id
  | .cancelled other => other = id
  | _ => False

theorem pending_of_settles (coherent : s.Coherent) {x : Step α} {h : Happening α} {id : Nat}
    (member : h ∈ s.happens x) (settles : h.Settles id) : s.isPending id = true := by
  cases h with
  | armed | advanced => cases settles
  | cancelled other =>
    cases settles
    exact of_cancelled member
  | ran task =>
    cases settles
    exact (mem_waiting.mp (of_ran coherent member).1).2

theorem settled_of_settles (coherent : s.Coherent) {x : Step α} {h : Happening α} {id : Nat}
    (member : h ∈ s.happens x) (settles : h.Settles id) : (s.step x).isPending id = false := by
  rw [Bool.eq_false_iff]
  intro pending
  obtain ⟨t, there, rfl⟩ := (coherent.step x).exists_waiting pending
  obtain ⟨there, stays⟩ := (waiting_step coherent x t).mp there
  cases h with
  | armed | advanced => cases settles
  | cancelled other =>
    cases settles
    exact stays (Or.inr member)
  | ran task =>
    obtain ⟨ran, -⟩ := of_ran coherent member
    rcases there with there | armed
    · obtain rfl := coherent.eq_of_id (mem_waiting.mp ran).1 (mem_waiting.mp there).1 settles
      exact stays (Or.inl member)
    · have known := lt_of_waiting ran
      rw [show task.id = t.id from settles, (of_armed coherent armed).1] at known
      exact Nat.lt_irrefl _ known

/-- A task that is not pending never is again. -/
theorem settled_step (coherent : s.Coherent) (x : Step α) {id : Nat} (known : id < s.nextId)
    (settled : s.isPending id = false) : (s.step x).isPending id = false := by
  rw [Bool.eq_false_iff]
  intro pending
  obtain ⟨t, there, rfl⟩ := (coherent.step x).exists_waiting pending
  rcases ((waiting_step coherent x t).mp there).1 with there | armed
  · rw [(mem_waiting.mp there).2] at settled
    cases settled
  · rw [(of_armed coherent armed).1] at known
    exact Nat.lt_irrefl _ known

/-- Nothing ends the wait of a task that does not wait. -/
theorem not_settles_of_settled (coherent : s.Coherent) {id : Nat} (known : id < s.nextId)
    (settled : s.isPending id = false) (steps : List (Step α)) :
    ∀ h ∈ s.log steps, ¬ h.Settles id := by
  induction steps generalizing s with
  | nil => exact fun _ member => nomatch member
  | cons x rest ih =>
    intro h member settles
    rcases List.mem_append.mp member with now | later
    · rw [pending_of_settles coherent now settles] at settled
      cases settled
    · exact ih (coherent.step x) (Nat.lt_of_lt_of_le known (nextId_step s x))
        (settled_step coherent x known settled) h later settles

theorem settles_once_step (coherent : s.Coherent) (x : Step α) :
    (s.happens x).Pairwise fun a b => ∀ id, a.Settles id → ¬ b.Settles id := by
  cases x with
  | turn time =>
    cases found : (s.turn time).2 <;> simp [happens, found, Turn.ran]
  | move x =>
    cases x with
    | clear =>
      have distinct : (s.waiting.map (·.id)).Nodup :=
        coherent.distinct.sublist (List.filter_sublist.map _)
      rw [happens, List.pairwise_map]
      refine (List.pairwise_map.mp distinct).imp fun other id first second => other ?_
      exact Eq.trans first (Eq.symm second)
    | cancel id => cases pending : (s.cancel id).2 <;> simp [happens, pending]
    | arm | advance | count | look => simp [happens]

/-- The wait of a task ends once: a task runs at most once, and never after it was cancelled. -/
theorem settles_once (coherent : s.Coherent) (steps : List (Step α)) :
    (s.log steps).Pairwise fun a b => ∀ id, a.Settles id → ¬ b.Settles id := by
  induction steps generalizing s with
  | nil => exact .nil
  | cons x rest ih =>
    refine List.pairwise_append.mpr ⟨settles_once_step coherent x, ih (coherent.step x), ?_⟩
    intro a now b later id settles
    have known := lt_of_isPending (pending_of_settles coherent now settles)
    exact not_settles_of_settled (coherent.step x)
      (Nat.lt_of_lt_of_le known (nextId_step s x))
      (settled_of_settles coherent now settles) rest b later

/-! ### Tasks that wait -/

theorem le_of_armed (coherent : s.Coherent) {steps : List (Step α)} {t : Armed α}
    (armed : .armed t ∈ s.log steps) : s.nextId ≤ t.id := by
  induction steps generalizing s with
  | nil => cases armed
  | cons x rest ih =>
    rcases List.mem_append.mp armed with now | later
    · exact Nat.le_of_eq (of_armed coherent now).1.symm
    · exact Nat.le_trans (nextId_step s x) (ih (coherent.step x) later)

theorem left_append {t : Armed α} {first second : List (Happening α)} :
    Left t (first ++ second) ↔ Left t first ∨ Left t second := by
  simp only [Left, List.mem_append]
  tauto

theorem pending_of_left (coherent : s.Coherent) {x : Step α} {t : Armed α}
    (left : Left t (s.happens x)) : s.isPending t.id = true := by
  rcases left with ran | cancelled
  · exact pending_of_settles coherent ran rfl
  · exact pending_of_settles coherent cancelled rfl

/-- What waits in the end waited at first or was armed, and has not left since; and all of that
waits. -/
theorem waiting_through (coherent : s.Coherent) (steps : List (Step α)) (t : Armed α) :
    t ∈ (s.through steps).waiting ↔
      (t ∈ s.waiting ∨ .armed t ∈ s.log steps) ∧ ¬ Left t (s.log steps) := by
  induction steps generalizing s with
  | nil => simp [through, log, Left]
  | cons x rest ih =>
    have fresh : .armed t ∈ (s.step x).log rest → ¬ Left t (s.happens x) := fun armed left => by
      have known := lt_of_isPending (pending_of_left coherent left)
      have new := le_of_armed (coherent.step x) armed
      have older := nextId_step s x
      omega
    refine (ih (coherent.step x)).trans ?_
    rw [waiting_step coherent x t, log, left_append, List.mem_append]
    tauto

/-- What runs waited at first or was armed. -/
theorem origin_of_ran (coherent : s.Coherent) {steps : List (Step α)} {t : Armed α}
    (ran : .ran t ∈ s.log steps) : t ∈ s.waiting ∨ .armed t ∈ s.log steps := by
  induction steps generalizing s with
  | nil => cases ran
  | cons x rest ih =>
    rw [log, List.mem_append]
    rcases List.mem_append.mp ran with now | later
    · exact Or.inl (of_ran coherent now).1
    · rcases ih (coherent.step x) later with there | armed
      · rcases ((waiting_step coherent x t).mp there).1 with there | armed
        · exact Or.inl there
        · exact Or.inr (Or.inl armed)
      · exact Or.inr (Or.inr armed)

/-! ### Order -/

def Happening.ran? : Happening α → Option (Armed α)
  | .ran task => some task
  | _ => none

/-- The tasks that ran, in order. -/
def ranIn (happenings : List (Happening α)) : List (Armed α) := happenings.filterMap Happening.ran?

theorem mem_ranIn {happenings : List (Happening α)} {t : Armed α} :
    t ∈ ranIn happenings ↔ .ran t ∈ happenings := by
  rw [ranIn, List.mem_filterMap]
  constructor
  · rintro ⟨h, member, found⟩
    cases h <;> cases found
    exact member
  · exact fun member => ⟨_, member, rfl⟩

theorem ranIn_append (first second : List (Happening α)) :
    ranIn (first ++ second) = ranIn first ++ ranIn second := List.filterMap_append

theorem ranIn_move (s : Schedule α) (x : Move α) : ranIn (s.happens (.move x)) = [] := by
  cases x with
  | cancel id => cases pending : (s.cancel id).2 <;> simp [happens, pending, ranIn, Happening.ran?]
  | clear => simp [happens, ranIn, List.filterMap_map, Function.comp_def, Happening.ran?]
  | arm | advance | count | look => rfl

theorem ranIn_turn (s : Schedule α) (time : Nat) :
    ranIn (s.happens (.turn time)) = (s.turn time).2.ran := by
  rw [happens]
  cases (s.turn time).2 <;> rfl

/-- While the clock does not go back, everything that runs goes after a task that was due before and
goes before everything in the queues. -/
theorem before_of_ran (coherent : s.Coherent) {first : Armed α} (known : first.id < s.nextId)
    (due : first.due ≤ s.now) (behind : ∀ t ∈ s.stored, first.Before t) {steps : List (Step α)}
    (forward : ∀ a b, .advanced a b ∈ s.log steps → a ≤ b) {t : Armed α}
    (ran : .ran t ∈ s.log steps) : first.Before t := by
  induction steps generalizing s with
  | nil => cases ran
  | cons x rest ih =>
    rcases List.mem_append.mp ran with now | later
    · exact behind t (mem_waiting.mp (of_ran coherent now).1).1
    · have onward := now_step fun a b member => forward a b (List.mem_append_left _ member)
      -- `behind` is what every step keeps: what is armed later is due no earlier than the clock reads
      refine ih (coherent.step x) (Nat.lt_of_lt_of_le known (nextId_step s x))
        (Nat.le_trans due onward) (fun u member => ?_)
        (fun a b member => forward a b (List.mem_append_right _ member)) later
      rcases stored_step member with old | armed
      · exact behind u old
      · obtain ⟨number, notBefore⟩ := of_armed coherent armed
        unfold Armed.Before
        omega

/-- What runs in turns at readings that the clock has reached runs in order. -/
theorem ordered_log (coherent : s.Coherent) {steps : List (Step α)}
    (reached : ∀ time, .turn time ∈ steps → time ≤ s.now)
    (forward : ∀ a b, .advanced a b ∈ s.log steps → a ≤ b) :
    (ranIn (s.log steps)).Pairwise Armed.Before := by
  induction steps generalizing s with
  | nil => exact .nil
  | cons x rest ih =>
    have onward := now_step fun a b member => forward a b (List.mem_append_left _ member)
    have later : ∀ a b, .advanced a b ∈ (s.step x).log rest → a ≤ b :=
      fun a b member => forward a b (List.mem_append_right _ member)
    rw [log, ranIn_append]
    refine List.pairwise_append.mpr ⟨?_, ih (coherent.step x) (fun time member =>
      Nat.le_trans (reached time (List.mem_cons_of_mem x member)) onward) later, ?_⟩
    · cases x with
      | turn time =>
        rw [ranIn_turn]
        cases (s.turn time).2 with
        | runs task => exact List.pairwise_singleton _ task
        | idle | stale => exact .nil
      | move x =>
        rw [ranIn_move]
        exact .nil
    · intro first now t after
      obtain ⟨there, time, rfl, due, behind⟩ := of_ran coherent (mem_ranIn.mp now)
      have reading := reached time List.mem_cons_self
      exact before_of_ran (coherent.step _) (Nat.lt_of_lt_of_le (lt_of_waiting there)
        (nextId_step s _)) (Nat.le_trans due (Nat.le_trans reading onward)) behind later
        (mem_ranIn.mp after)

end Cohort.Schedule
