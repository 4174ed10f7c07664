import Cohort.Proofs.Schedule.Queues

/-! Steps of a schedule, one at a time: what is done with it from outside and from running tasks, and
the turns of passes. Every step keeps queues and states in agreement, and says what happened in it:
what was armed, cancelled and run, and how the clock moved. -/

namespace Cohort.Schedule

variable {α : Type} {s : Schedule α}

/-- The next thing done with a schedule. -/
inductive Step (α : Type) where
  | move (x : Move α)
  /-- A pass that read the clock at `time` takes a turn. -/
  | turn (time : Nat)

def step (s : Schedule α) : Step α → Schedule α
  | .move x => s.move x
  | .turn time => (s.turn time).1

/-- What can happen in a step. -/
inductive Happening (α : Type) where
  | armed (task : Armed α)
  /-- A pending task was cancelled, by its number or with all others. -/
  | cancelled (id : Nat)
  | advanced (earlier later : Nat)
  | ran (task : Armed α)

/-- The task that runs at a turn, if one does. -/
def Turn.ran : Turn α → List (Armed α)
  | .runs task => [task]
  | _ => []

/-- What a step comes to in the schedule that it is taken in. -/
def happens (s : Schedule α) : Step α → List (Happening α)
  | .move (.arm delay task) => [.armed ⟨s.nextId, dueAt s.now delay, task⟩]
  | .move (.cancel id) => if (s.cancel id).2 then [.cancelled id] else []
  | .move .clear => s.waiting.map fun task => .cancelled task.id
  | .move (.advance by_) => [.advanced s.now (s.advance by_).now]
  | .move .count => []
  | .move .look => []
  | .turn time => (s.turn time).2.ran.map .ran

/-- The schedule after some steps. -/
def through (s : Schedule α) (steps : List (Step α)) : Schedule α := steps.foldl step s

/-- What happens in some steps, in order. -/
def log (s : Schedule α) : List (Step α) → List (Happening α)
  | [] => []
  | x :: rest => s.happens x ++ (s.step x).log rest

theorem through_append (s : Schedule α) (first second : List (Step α)) :
    s.through (first ++ second) = (s.through first).through second := List.foldl_append

theorem mem_happens_turn {time : Nat} {h : Happening α} :
    h ∈ s.happens (.turn time) ↔ ∃ task, (s.turn time).2 = .runs task ∧ h = .ran task := by
  cases found : (s.turn time).2 <;> simp [happens, found, Turn.ran]

theorem mem_happens_cancel {id : Nat} {h : Happening α} :
    h ∈ s.happens (.move (.cancel id)) ↔ s.isPending id = true ∧ h = .cancelled id := by
  cases pending : s.isPending id <;> simp [happens, cancel, settle, pending]

theorem log_append (s : Schedule α) (first second : List (Step α)) :
    s.log (first ++ second) = s.log first ++ (s.through first).log second := by
  induction first generalizing s with
  | nil => rfl
  | cons x rest ih =>
    rw [List.cons_append, log, log, ih, List.append_assoc]
    rfl

/-! ### Turns -/

theorem mem_gathered {lobby : List (Armed α)} (gathered : s.gather.lobby = lobby) {t : Armed α} :
    t ∈ s.stored ↔ t ∈ lobby := by
  rw [← gathered]
  exact (gather_perm s).mem_iff.symm

theorem Coherent.ne_of_gathered (coherent : s.Coherent) {task : Armed α} {rest : List (Armed α)}
    (gathered : s.gather.lobby = task :: rest) : ∀ t ∈ rest, t.id ≠ task.id := by
  have distinct := coherent.gather.distinct
  rw [stored_gather, gathered] at distinct
  exact fun t member same => (List.nodup_cons.mp distinct).1 (List.mem_map.mpr ⟨t, member, same⟩)

theorem Coherent.turn (coherent : s.Coherent) (time : Nat) : (s.turn time).1.Coherent := by
  rcases turn_cases s time with ⟨idle, -⟩ | ⟨task, rest, gathered, -, ⟨stale, moved⟩ | ⟨-, moved⟩⟩
  · rw [idle]
    exact coherent.gather
  · have fewer : rest.Sublist s.gather.lobby := gathered ▸ List.sublist_cons_self task rest
    rw [moved]
    refine coherent.gather.drop fewer fun t member pending => ?_
    rw [gathered] at member
    rcases List.mem_cons.mp member with rfl | later
    · exact absurd pending (by rw [show s.gather.isPending t.id = false from stale]; decide)
    · exact later
  -- the task leaves the queues before its state is settled, and between the two the schedule is not
  -- coherent, so each part is shown of the whole turn
  · have gather := coherent.gather
    have distinct := gather.distinct
    rw [stored_gather, gathered] at distinct
    have within : ∀ t ∈ rest, t ∈ s.stored := fun t member =>
      (mem_gathered gathered).mpr (List.mem_cons_of_mem task member)
    rw [moved]
    exact
      { known := fun t member => by
          rw [stored_settle] at member
          rw [nextId_settle]
          exact coherent.known t (within t member)
        distinct := by
          rw [stored_settle]
          exact (List.nodup_cons.mp distinct).2
        sorted := by
          rw [lobby_settle]
          exact (List.pairwise_cons.mp (gathered ▸ gather.sorted)).2
        unfired := fun t member => by
          rw [stored_settle] at member
          have other := coherent.ne_of_gathered gathered t member
          rw [state?_settle, if_neg fun both => other both.1]
          exact coherent.unfired t (within t member)
        kept := fun id pending => by
          obtain ⟨pending, other⟩ := (isPending_settle (by decide)).mp pending
          obtain ⟨t, member, same⟩ := coherent.kept id pending
          refine ⟨t, ?_, same⟩
          rw [stored_settle]
          rcases List.mem_cons.mp ((mem_gathered gathered).mp member) with rfl | later
          · exact absurd same.symm other
          · exact later
        clock := by
          rw [now_settle]
          exact coherent.clock }

/-- A turn leaves the clock and the numbers alone, and adds nothing to the queues. -/
theorem turn_fields (s : Schedule α) (time : Nat) :
    (s.turn time).1.now = s.now ∧ (s.turn time).1.nextId = s.nextId ∧
      ∀ t ∈ (s.turn time).1.stored, t ∈ s.stored := by
  rcases turn_cases s time with
    ⟨moved, -⟩ | ⟨task, rest, gathered, -, ⟨-, moved⟩ | ⟨-, moved⟩⟩ <;> rw [moved]
  · exact ⟨rfl, rfl, fun t member => (gather_perm s).mem_iff.mp member⟩
  · exact ⟨rfl, rfl, fun t member => (mem_gathered gathered).mpr (List.mem_cons_of_mem task member)⟩
  · refine ⟨now_settle .., nextId_settle .., fun t member => ?_⟩
    rw [stored_settle] at member
    exact (mem_gathered gathered).mpr (List.mem_cons_of_mem task member)

/-- Whatever is done with a schedule, its queues and states still agree. -/
theorem Coherent.step (coherent : s.Coherent) (x : Step α) : (s.step x).Coherent := by
  cases x with
  | move x => exact coherent.move x
  | turn time => exact coherent.turn time

theorem Coherent.through (coherent : s.Coherent) (steps : List (Step α)) :
    (s.through steps).Coherent := by
  induction steps generalizing s with
  | nil => exact coherent
  | cons x rest ih => exact ih (coherent.step x)

/-! ### What happens -/

/-- What runs is pending and due, and goes before everything that stays. -/
theorem Coherent.of_ran (coherent : s.Coherent) {time : Nat} {task : Armed α}
    (ran : (s.turn time).2 = .runs task) :
    task ∈ s.waiting ∧ task.due ≤ time ∧ ∀ t ∈ (s.turn time).1.stored, task.Before t := by
  rcases turn_cases s time with
    ⟨moved, -⟩ | ⟨t, rest, gathered, due, ⟨-, moved⟩ | ⟨pending, moved⟩⟩ <;> rw [moved] at ran ⊢
  · cases ran
  · cases ran
  · cases ran
    refine ⟨mem_waiting.mpr ⟨(mem_gathered gathered).mpr List.mem_cons_self, pending⟩, due, ?_⟩
    rw [stored_settle]
    exact (List.pairwise_cons.mp (gathered ▸ coherent.gather.sorted)).1

theorem waiting_arm (coherent : s.Coherent) (delay : Span) (task : α) (t : Armed α) :
    t ∈ (s.arm delay task).1.waiting ↔ t ∈ s.waiting ∨ t = ⟨s.nextId, dueAt s.now delay, task⟩ := by
  rw [mem_waiting, mem_waiting, isPending_arm]
  change t ∈ _ :: s.stored ∧ _ ↔ _
  rw [List.mem_cons]
  constructor
  · rintro ⟨rfl | stored, fresh | pending⟩
    · exact Or.inr rfl
    · exact Or.inr rfl
    · exact absurd (coherent.known t stored) (fresh ▸ Nat.lt_irrefl _)
    · exact Or.inl ⟨stored, pending⟩
  · rintro (⟨stored, pending⟩ | rfl)
    · exact ⟨Or.inr stored, Or.inr pending⟩
    · exact ⟨Or.inl rfl, Or.inl rfl⟩

theorem waiting_cancel (id : Nat) (t : Armed α) :
    t ∈ (s.cancel id).1.waiting ↔ t ∈ s.waiting ∧ t.id ≠ id := by
  rw [mem_waiting, mem_waiting, cancel, stored_settle, isPending_settle (by decide), and_assoc]

theorem waiting_gather (t : Armed α) : t ∈ s.gather.waiting ↔ t ∈ s.waiting := by
  rw [mem_waiting, mem_waiting, stored_gather, (gather_perm s).mem_iff]
  rfl

theorem waiting_look (t : Armed α) : t ∈ s.look.1.waiting ↔ t ∈ s.waiting := by
  have kept : t ∈ s.look.1.waiting ↔ t ∈ s.gather.waiting := by
    rw [mem_waiting, mem_waiting]
    change t ∈ s.gather.lobby.filter _ ∧ _ ↔ _
    rw [List.mem_filter, and_assoc]
    exact and_congr_right fun _ => and_self_iff
  exact kept.trans (waiting_gather t)

theorem waiting_clear (s : Schedule α) : s.clear.waiting = [] := by
  rw [waiting, stored_clear]
  rfl

theorem waiting_turn (coherent : s.Coherent) (time : Nat) (t : Armed α) :
    t ∈ (s.turn time).1.waiting ↔ t ∈ s.waiting ∧ (s.turn time).2 ≠ .runs t := by
  rcases turn_cases s time with
    ⟨moved, -⟩ | ⟨task, rest, gathered, -, ⟨stale, moved⟩ | ⟨pending, moved⟩⟩ <;> rw [moved]
  · rw [waiting_gather]
    exact ⟨fun there => ⟨there, by simp⟩, And.left⟩
  · rw [mem_waiting, mem_waiting, mem_gathered gathered, List.mem_cons]
    constructor
    · rintro ⟨later, pending⟩
      exact ⟨⟨Or.inr later, pending⟩, by simp⟩
    · rintro ⟨⟨rfl | later, pending⟩, -⟩
      · exact absurd pending (by rw [stale]; decide)
      · exact ⟨later, pending⟩
  · rw [mem_waiting, mem_waiting, stored_settle, isPending_settle (by decide), mem_gathered gathered,
      List.mem_cons]
    constructor
    · rintro ⟨later, pending, other⟩
      refine ⟨⟨Or.inr later, pending⟩, fun same => other ?_⟩
      cases same
      rfl
    · rintro ⟨⟨rfl | later, pending⟩, other⟩
      · exact absurd rfl other
      · exact ⟨later, pending, coherent.ne_of_gathered gathered t later⟩

/-- A task has left the schedule: it ran, or it was cancelled while it was pending. -/
def Left (task : Armed α) (happenings : List (Happening α)) : Prop :=
  .ran task ∈ happenings ∨ .cancelled task.id ∈ happenings

/-- A step neither loses a pending task nor makes up one. -/
theorem waiting_step (coherent : s.Coherent) (x : Step α) (t : Armed α) :
    t ∈ (s.step x).waiting ↔
      (t ∈ s.waiting ∨ .armed t ∈ s.happens x) ∧ ¬ Left t (s.happens x) := by
  cases x with
  | turn time =>
    exact (waiting_turn coherent time t).trans (by simp [mem_happens_turn, Left])
  | move x =>
    cases x with
    | arm delay task => exact (waiting_arm coherent delay task t).trans (by simp [happens, Left])
    | cancel id =>
      have pending : t ∈ s.waiting → t.id = id → s.isPending id = true := by
        rintro there rfl
        exact (mem_waiting.mp there).2
      refine (waiting_cancel id t).trans ?_
      simp only [mem_happens_cancel, Left]
      grind
    | clear =>
      have none : t ∉ s.clear.waiting := by
        rw [waiting_clear]
        exact List.not_mem_nil
      refine iff_of_false none fun both => both.2 (Or.inr ?_)
      have there : t ∈ s.waiting := by simpa [happens] using both.1
      exact List.mem_map.mpr ⟨t, there, rfl⟩
    | advance by_ => exact (Iff.rfl : t ∈ s.waiting ↔ t ∈ s.waiting).trans (by simp [happens, Left])
    | count => exact (waiting_gather t).trans (by simp [happens, Left])
    | look => exact (waiting_look t).trans (by simp [happens, Left])

/-- New tasks have new numbers, and none is due before the clock's reading. -/
theorem of_armed (coherent : s.Coherent) {x : Step α} {t : Armed α} (armed : .armed t ∈ s.happens x) :
    t.id = s.nextId ∧ s.now ≤ t.due := by
  have within := coherent.clock
  cases x with
  | turn time =>
    obtain ⟨_, -, other⟩ := mem_happens_turn.mp armed
    cases other
  | move x =>
    cases x with
    | arm delay task =>
      obtain rfl : t = _ := by simpa [happens] using armed
      refine ⟨rfl, Nat.le_min.mpr ⟨Nat.le_add_right _ _, ?_⟩⟩
      omega
    | cancel id => cases (mem_happens_cancel.mp armed).2
    | clear | advance | count | look => simp [happens] at armed

theorem of_ran (coherent : s.Coherent) {x : Step α} {t : Armed α} (ran : .ran t ∈ s.happens x) :
    t ∈ s.waiting ∧ ∃ time, x = .turn time ∧ t.due ≤ time ∧ ∀ u ∈ (s.step x).stored, t.Before u := by
  cases x with
  | turn time =>
    obtain ⟨task, found, same⟩ := mem_happens_turn.mp ran
    cases same
    obtain ⟨there, due, first⟩ := coherent.of_ran found
    exact ⟨there, time, rfl, due, first⟩
  | move x =>
    cases x with
    | cancel id => cases (mem_happens_cancel.mp ran).2
    | arm | clear | advance | count | look => simp [happens] at ran

theorem of_cancelled {x : Step α} {id : Nat} (cancelled : .cancelled id ∈ s.happens x) :
    s.isPending id = true := by
  cases x with
  | turn time =>
    obtain ⟨_, -, other⟩ := mem_happens_turn.mp cancelled
    cases other
  | move x =>
    cases x with
    | cancel other =>
      obtain ⟨pending, same⟩ := mem_happens_cancel.mp cancelled
      cases same
      exact pending
    | clear =>
      obtain ⟨task, there, rfl⟩ : ∃ task ∈ s.waiting, task.id = id := by
        simpa [happens] using cancelled
      exact (mem_waiting.mp there).2
    | arm | advance | count | look => simp [happens] at cancelled

theorem nextId_step (s : Schedule α) (x : Step α) : s.nextId ≤ (s.step x).nextId := by
  cases x with
  | turn time => exact (turn_fields s time).2.1.symm ▸ Nat.le_refl _
  | move x =>
    cases x with
    | arm delay task => exact (nextId_arm s delay task).symm ▸ Nat.le_succ _
    | cancel id => exact (nextId_settle s id .cancelled).symm ▸ Nat.le_refl _
    | clear => exact (cancelAll_fields s.gather.lobby s.gather).2.2.symm ▸ Nat.le_refl _
    | advance | count | look => exact Nat.le_refl _

/-- Nothing gets into the queues unless it is armed. -/
theorem stored_step {x : Step α} {t : Armed α}
    (member : t ∈ (s.step x).stored) : t ∈ s.stored ∨ .armed t ∈ s.happens x := by
  cases x with
  | turn time => exact Or.inl ((turn_fields s time).2.2 t member)
  | move x =>
    cases x with
    | arm delay task =>
      rcases List.mem_cons.mp member with rfl | old
      · exact Or.inr List.mem_cons_self
      · exact Or.inl old
    | cancel id => exact Or.inl (stored_settle s id .cancelled ▸ member)
    | clear =>
      change t ∈ s.clear.stored at member
      rw [stored_clear] at member
      cases member
    | advance by_ => exact Or.inl member
    | count => exact Or.inl ((gather_perm s).mem_iff.mp member)
    | look => exact Or.inl ((gather_perm s).mem_iff.mp (List.mem_of_mem_filter member))

theorem now_step {x : Step α}
    (forward : ∀ a b, .advanced a b ∈ s.happens x → a ≤ b) : s.now ≤ (s.step x).now := by
  cases x with
  | turn time => exact (turn_fields s time).1.symm ▸ Nat.le_refl _
  | move x =>
    cases x with
    | advance by_ => exact forward _ _ List.mem_cons_self
    | cancel id => exact (now_settle s id .cancelled).symm ▸ Nat.le_refl _
    | clear => exact (cancelAll_fields s.gather.lobby s.gather).2.1.symm ▸ Nat.le_refl _
    | arm | count | look => exact Nat.le_refl _

end Cohort.Schedule
