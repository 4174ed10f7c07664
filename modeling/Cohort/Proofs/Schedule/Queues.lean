import Cohort.Schedule.Basic
import Mathlib.Data.List.Perm.Basic

/-! The queues of a schedule and the states of its tasks: what each operation leaves in them. Moving
tasks from the intake to the lobby only puts them in another order, and a task's state goes from
pending to one of the other two and stays there. -/

namespace Cohort

variable {α : Type}

namespace Armed

theorem Before.trans {a b c : Armed α} (first : a.Before b) (second : b.Before c) : a.Before c := by
  unfold Before at *
  omega

theorem before_of_not {a b : Armed α} (other : a.id ≠ b.id) (later : ¬ a.Before b) : b.Before a := by
  unfold Before at *
  omega

theorem Before.due_le {a b : Armed α} (before : a.Before b) : a.due ≤ b.due := by
  unfold Before at before
  omega

end Armed

namespace Schedule

variable {s : Schedule α}

/-! ### Queues -/

theorem insert_perm (task : Armed α) (tasks : List (Armed α)) :
    (insert task tasks).Perm (task :: tasks) := by
  fun_induction insert task tasks with
  | case1 => exact .refl _
  | case2 other rest before ih => exact (ih.cons other).trans (.swap task other rest)
  | case3 other rest behind => exact .refl _

theorem insert_sorted {task : Armed α} {tasks : List (Armed α)}
    (sorted : tasks.Pairwise Armed.Before) (new : ∀ other ∈ tasks, other.id ≠ task.id) :
    (insert task tasks).Pairwise Armed.Before := by
  fun_induction insert task tasks with
  | case1 => exact List.pairwise_singleton _ task
  | case2 other rest before ih =>
    obtain ⟨first, sorted⟩ := List.pairwise_cons.mp sorted
    refine List.pairwise_cons.mpr ⟨fun t member => ?_, ih sorted fun t member =>
      new t (List.mem_cons_of_mem other member)⟩
    rcases List.mem_cons.mp ((insert_perm task rest).mem_iff.mp member) with rfl | later
    · exact before
    · exact first t later
  | case3 other rest behind =>
    have before := Armed.before_of_not (new other List.mem_cons_self) behind
    have first := (List.pairwise_cons.mp sorted).1
    refine List.pairwise_cons.mpr ⟨fun t member => ?_, sorted⟩
    rcases List.mem_cons.mp member with rfl | later
    · exact before
    · exact before.trans (first t later)

theorem gathered_perm (intake lobby : List (Armed α)) :
    (intake.foldr insert lobby).Perm (intake ++ lobby) := by
  induction intake with
  | nil => exact .refl _
  | cons task rest ih => exact (insert_perm task _).trans (ih.cons task)

theorem gathered_sorted {intake lobby : List (Armed α)} (sorted : lobby.Pairwise Armed.Before)
    (distinct : ((intake ++ lobby).map (·.id)).Nodup) :
    (intake.foldr insert lobby).Pairwise Armed.Before := by
  induction intake with
  | nil => exact sorted
  | cons task rest ih =>
    obtain ⟨new, distinct⟩ := List.nodup_cons.mp distinct
    refine insert_sorted (ih distinct) fun other member same => new ?_
    exact List.mem_map.mpr ⟨other, (gathered_perm rest lobby).mem_iff.mp member, same⟩

theorem gather_perm (s : Schedule α) : s.gather.lobby.Perm s.stored := gathered_perm s.intake s.lobby

@[simp] theorem stored_gather (s : Schedule α) : s.gather.stored = s.gather.lobby := rfl

/-- The pending tasks. -/
def waiting (s : Schedule α) : List (Armed α) := s.stored.filter fun task => s.isPending task.id

theorem mem_waiting {task : Armed α} : task ∈ s.waiting ↔ task ∈ s.stored ∧ s.isPending task.id :=
  List.mem_filter

/-! ### States -/

theorem isPending_iff {id : Nat} : s.isPending id = true ↔ s.states[id]? = some .pending :=
  beq_iff_eq

theorem lt_of_isPending {id : Nat} (pending : s.isPending id = true) : id < s.nextId := by
  rw [isPending_iff] at pending
  exact (Array.getElem?_eq_some_iff.mp pending).1

theorem nextId_arm (s : Schedule α) (delay : Span) (task : α) :
    (s.arm delay task).1.nextId = s.nextId + 1 := Array.size_push _

theorem state?_arm (s : Schedule α) (delay : Span) (task : α) (id : Nat) :
    (s.arm delay task).1.states[id]? = if id = s.nextId then some .pending else s.states[id]? :=
  Array.getElem?_push

theorem isPending_arm {delay : Span} {task : α} {id : Nat} :
    (s.arm delay task).1.isPending id = true ↔ id = s.nextId ∨ s.isPending id = true := by
  rw [isPending_iff, isPending_iff, state?_arm]
  split
  · rename_i same
    exact iff_of_true rfl (Or.inl same)
  · rename_i other
    exact ⟨Or.inr, fun pending => pending.resolve_left other⟩

theorem settle_of_settled {id : Nat} {state : TaskState} (settled : s.isPending id = false) :
    s.settle id state = (s, false) := if_neg (by rw [settled]; decide)

theorem settle_of_pending {id : Nat} (pending : s.isPending id = true) (state : TaskState) :
    s.settle id state = ((s.settle id state).1, true) := by
  rw [settle, if_pos pending]

theorem state?_settle (s : Schedule α) (id : Nat) (state : TaskState) (other : Nat) :
    (s.settle id state).1.states[other]? =
      if other = id ∧ s.isPending id then some state else s.states[other]? := by
  unfold settle
  split
  · rename_i pending
    have known : id < s.states.size := lt_of_isPending pending
    by_cases same : other = id
    · subst same
      rw [if_pos ⟨rfl, pending⟩, Array.getElem?_setIfInBounds_self_of_lt known]
    · rw [if_neg fun h => same h.1, Array.getElem?_setIfInBounds_ne (Ne.symm same)]
  · rename_i settled
    rw [if_neg fun h => settled h.2]

@[simp] theorem intake_settle (s : Schedule α) (id : Nat) (state : TaskState) :
    (s.settle id state).1.intake = s.intake := by
  unfold settle
  split <;> rfl

@[simp] theorem lobby_settle (s : Schedule α) (id : Nat) (state : TaskState) :
    (s.settle id state).1.lobby = s.lobby := by
  unfold settle
  split <;> rfl

@[simp] theorem now_settle (s : Schedule α) (id : Nat) (state : TaskState) :
    (s.settle id state).1.now = s.now := by
  unfold settle
  split <;> rfl

@[simp] theorem nextId_settle (s : Schedule α) (id : Nat) (state : TaskState) :
    (s.settle id state).1.nextId = s.nextId := by
  unfold settle nextId
  split
  · exact Array.size_setIfInBounds
  · rfl

@[simp] theorem stored_settle (s : Schedule α) (id : Nat) (state : TaskState) :
    (s.settle id state).1.stored = s.stored := by
  rw [stored, stored, intake_settle, lobby_settle]

theorem isPending_settle {id other : Nat} {state : TaskState} (settled : state ≠ .pending) :
    (s.settle id state).1.isPending other = true ↔ s.isPending other = true ∧ other ≠ id := by
  rw [isPending_iff, isPending_iff, state?_settle]
  split
  · rename_i same
    exact iff_of_false (fun pending => settled (Option.some.inj pending)) fun both => both.2 same.1
  · rename_i differs
    refine ⟨fun pending => ⟨pending, fun same => differs ⟨same, ?_⟩⟩, And.left⟩
    rw [isPending_iff, ← same, pending]

/-- Cancels some tasks one after the other. -/
def cancelAll (s : Schedule α) (tasks : List (Armed α)) : Schedule α :=
  tasks.foldl (fun s task => (s.cancel task.id).1) s

theorem cancelAll_fields (tasks : List (Armed α)) (s : Schedule α) :
    (s.cancelAll tasks).intake = s.intake ∧ (s.cancelAll tasks).now = s.now ∧
      (s.cancelAll tasks).nextId = s.nextId := by
  induction tasks generalizing s with
  | nil => exact ⟨rfl, rfl, rfl⟩
  | cons task rest ih =>
    obtain ⟨intake, now, nextId⟩ := ih (s.cancel task.id).1
    exact ⟨intake.trans (intake_settle ..), now.trans (now_settle ..), nextId.trans (nextId_settle ..)⟩

theorem isPending_cancelAll {tasks : List (Armed α)} {id : Nat} :
    (s.cancelAll tasks).isPending id = true ↔
      s.isPending id = true ∧ ∀ task ∈ tasks, id ≠ task.id := by
  induction tasks generalizing s with
  | nil => exact ⟨fun pending => ⟨pending, fun _ member => nomatch member⟩, And.left⟩
  | cons task rest ih =>
    rw [cancelAll, List.foldl_cons, ← cancelAll, ih, cancel, isPending_settle (by decide),
      List.forall_mem_cons, and_assoc]

theorem stored_clear (s : Schedule α) : s.clear.stored = [] := by
  change (s.gather.cancelAll s.gather.lobby).intake ++ [] = []
  rw [List.append_nil, (cancelAll_fields s.gather.lobby s.gather).1]
  rfl

/-! ### Agreement of queues and states -/

/-- The queues hold every pending task once and no task that has run, in the order of the lobby. -/
structure Coherent (s : Schedule α) : Prop where
  known : ∀ task ∈ s.stored, task.id < s.nextId
  distinct : (s.stored.map (·.id)).Nodup
  sorted : s.lobby.Pairwise Armed.Before
  unfired : ∀ task ∈ s.stored, s.states[task.id]? ≠ some .fired
  kept : ∀ id, s.isPending id = true → ∃ task ∈ s.stored, task.id = id
  clock : s.now < horizon

theorem coherent_start (start : UInt64) : Coherent ({ now := start.toNat } : Schedule α) where
  known _ member := nomatch member
  distinct := .nil
  sorted := .nil
  unfired _ member := nomatch member
  kept id pending := absurd (lt_of_isPending pending) (Nat.not_lt_zero id)
  clock := start.toNat_lt

namespace Coherent

theorem isPending_iff (coherent : s.Coherent) (id : Nat) : s.isPending id = true ↔
    (∃ task ∈ s.stored, task.id = id) ∧ s.states[id]? ≠ some .cancelled := by
  constructor
  · intro pending
    refine ⟨coherent.kept id pending, ?_⟩
    rw [Schedule.isPending_iff.mp pending]
    decide
  · rintro ⟨⟨task, member, rfl⟩, uncancelled⟩
    have unfired := coherent.unfired task member
    obtain ⟨state, found⟩ : ∃ state, s.states[task.id]? = some state :=
      ⟨_, Array.getElem?_eq_getElem (coherent.known task member)⟩
    rw [found] at uncancelled unfired
    rw [Schedule.isPending_iff, found]
    cases state with
    | pending => rfl
    | fired => exact absurd rfl unfired
    | cancelled => exact absurd rfl uncancelled

theorem gather (coherent : s.Coherent) : s.gather.Coherent where
  known task member := coherent.known task ((gather_perm s).mem_iff.mp member)
  distinct := ((gather_perm s).map _).nodup_iff.mpr coherent.distinct
  sorted := gathered_sorted coherent.sorted coherent.distinct
  unfired task member := coherent.unfired task ((gather_perm s).mem_iff.mp member)
  kept id pending := by
    obtain ⟨task, member, same⟩ := coherent.kept id pending
    exact ⟨task, (gather_perm s).mem_iff.mpr member, same⟩
  clock := coherent.clock

/-- Tasks that are no longer pending may leave the lobby. -/
theorem drop (coherent : s.Coherent) {lobby : List (Armed α)} (fewer : lobby.Sublist s.lobby)
    (lost : ∀ task ∈ s.lobby, s.isPending task.id = true → task ∈ lobby) :
    Coherent { s with lobby := lobby } :=
  have within : (s.intake ++ lobby).Sublist s.stored := (List.Sublist.refl s.intake).append fewer
  { known := fun task member => coherent.known task (within.subset member)
    distinct := coherent.distinct.sublist (within.map _)
    sorted := coherent.sorted.sublist fewer
    unfired := fun task member => coherent.unfired task (within.subset member)
    kept := fun id pending => by
      obtain ⟨task, member, same⟩ := coherent.kept id pending
      refine ⟨task, ?_, same⟩
      rcases List.mem_append.mp member with new | old
      · exact List.mem_append_left _ new
      · exact List.mem_append_right _ (lost task old (same ▸ pending))
    clock := coherent.clock }

theorem arm (coherent : s.Coherent) (delay : Span) (task : α) : (s.arm delay task).1.Coherent where
  known t member := by
    rw [nextId_arm]
    rcases List.mem_cons.mp member with rfl | old
    · exact Nat.lt_succ_self _
    · exact Nat.lt_succ_of_lt (coherent.known t old)
  distinct := by
    refine List.nodup_cons.mpr ⟨fun member => ?_, coherent.distinct⟩
    obtain ⟨t, old, same⟩ := List.mem_map.mp member
    exact absurd (coherent.known t old) (same ▸ Nat.lt_irrefl _)
  sorted := coherent.sorted
  unfired t member := by
    rw [state?_arm]
    rcases List.mem_cons.mp member with rfl | old
    · rw [if_pos rfl]
      decide
    · rw [if_neg (Nat.ne_of_lt (coherent.known t old))]
      exact coherent.unfired t old
  kept id pending := by
    rw [isPending_arm] at pending
    rcases pending with rfl | pending
    · exact ⟨_, List.mem_cons_self, rfl⟩
    · obtain ⟨t, old, same⟩ := coherent.kept id pending
      exact ⟨t, List.mem_cons_of_mem _ old, same⟩
  clock := coherent.clock

theorem cancel (coherent : s.Coherent) (id : Nat) : (s.cancel id).1.Coherent where
  known task member := by
    rw [Schedule.cancel, stored_settle] at member
    rw [Schedule.cancel, nextId_settle]
    exact coherent.known task member
  distinct := by
    rw [Schedule.cancel, stored_settle]
    exact coherent.distinct
  sorted := by
    rw [Schedule.cancel, lobby_settle]
    exact coherent.sorted
  unfired task member := by
    rw [Schedule.cancel, stored_settle] at member
    rw [Schedule.cancel, state?_settle]
    split
    · decide
    · exact coherent.unfired task member
  kept other pending := by
    rw [Schedule.cancel, stored_settle]
    exact coherent.kept other ((isPending_settle (by decide)).mp pending).1
  clock := by
    rw [Schedule.cancel, now_settle]
    exact coherent.clock

theorem clear (coherent : s.Coherent) : s.clear.Coherent where
  known task member := by
    rw [stored_clear] at member
    cases member
  distinct := by
    rw [stored_clear]
    exact .nil
  sorted := .nil
  unfired task member := by
    rw [stored_clear] at member
    cases member
  kept id pending := by
    obtain ⟨pending, others⟩ := isPending_cancelAll.mp pending
    obtain ⟨task, member, same⟩ := coherent.gather.kept id pending
    exact absurd same.symm (others task member)
  clock := by
    change (s.gather.cancelAll s.gather.lobby).now < horizon
    rw [(cancelAll_fields s.gather.lobby s.gather).2.1]
    exact coherent.clock

theorem advance (coherent : s.Coherent) (by_ : Span) : (s.advance by_).Coherent :=
  { coherent with clock := Nat.mod_lt _ (by decide) }

theorem look (coherent : s.Coherent) : s.look.1.Coherent :=
  coherent.gather.drop List.filter_sublist fun _ member pending =>
    List.mem_filter.mpr ⟨member, pending⟩

theorem move (coherent : s.Coherent) (x : Move α) : (s.move x).Coherent := by
  cases x with
  | arm delay task => exact coherent.arm delay task
  | cancel id => exact coherent.cancel id
  | clear => exact coherent.clear
  | advance by_ => exact coherent.advance by_
  | count => exact coherent.gather
  | look => exact coherent.look

end Coherent

/-- The schedule with nothing but these tasks in its queues. -/
def only (s : Schedule α) (rest : List (Armed α)) : Schedule α := { s with intake := [], lobby := rest }

/-- Everything that a turn can come to. -/
theorem turn_cases (s : Schedule α) (time : Nat) :
    (s.turn time = (s.gather, .idle) ∧ ∀ task ∈ s.gather.lobby.head?, time < task.due) ∨
    ∃ task rest, s.gather.lobby = task :: rest ∧ task.due ≤ time ∧
      ((s.isPending task.id = false ∧ s.turn time = (s.only rest, .stale)) ∨
        (s.isPending task.id = true ∧
          s.turn time = (((s.only rest).settle task.id .fired).1, .runs task))) := by
  cases lobby : s.gather.lobby with
  | nil => exact Or.inl ⟨by simp only [turn, takeDue, lobby], fun task member => nomatch member⟩
  | cons task rest =>
    by_cases due : task.due ≤ time
    · have taken : s.takeDue time = (some task, s.only rest) := by
        simp only [takeDue, lobby, if_pos due]
        rfl
      refine Or.inr ⟨task, rest, rfl, due, ?_⟩
      cases pending : s.isPending task.id with
      | false =>
        have settled : (s.only rest).settle task.id .fired = (s.only rest, false) :=
          settle_of_settled pending
        exact Or.inl ⟨rfl, by simp only [turn, taken, settled]⟩
      | true =>
        have settled := settle_of_pending (s := s.only rest) pending .fired
        refine Or.inr ⟨rfl, ?_⟩
        simp only [turn, taken]
        rw [settled]
    · refine Or.inl ⟨by simp only [turn, takeDue, lobby, if_neg due], fun first member => ?_⟩
      cases member
      exact Nat.lt_of_not_le due

/-- A pass stops only when nothing that is stored is due. -/
theorem Coherent.lt_due_of_idle (coherent : s.Coherent) {time : Nat}
    (idle : (s.turn time).2 = .idle) : ∀ task ∈ s.stored, time < task.due := by
  rcases turn_cases s time with
    ⟨-, first⟩ | ⟨task, rest, -, -, ⟨-, moved⟩ | ⟨-, moved⟩⟩
  · intro task member
    have sorted := coherent.gather.sorted
    rw [← (gather_perm s).mem_iff] at member
    cases lobby : s.gather.lobby with
    | nil =>
      rw [lobby] at member
      cases member
    | cons head rest =>
      rw [lobby] at sorted member first
      rcases List.mem_cons.mp member with rfl | later
      · exact first task rfl
      · exact Nat.lt_of_lt_of_le (first head rfl) (List.rel_of_pairwise_cons sorted later).due_le
  · rw [moved] at idle
    cases idle
  · rw [moved] at idle
    cases idle

end Schedule

end Cohort
