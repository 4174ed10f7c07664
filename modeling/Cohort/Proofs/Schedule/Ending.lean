import Cohort.Health.Detector
import Cohort.Proofs.Schedule.Passes
import Cohort.Schedule.Script
import Mathlib.Algebra.Order.BigOperators.Group.List
import Mathlib.Algebra.Order.Group.Nat

/-! Passes that end. A pass takes one task out of the queues at every turn, so it ends unless its
tasks go on arming others for now; and once it has ended, more steps would not have changed it. -/

namespace Cohort

namespace Schedule

variable {σ α ε : Type} {run : σ → Schedule α → α → σ × List (Move α) × Option ε}

/-- Once a pass has ended, more steps would not have changed it. -/
theorem continuePass_more {time steps count : Nat} {world : σ} {s : Schedule α}
    (ended : (continuePass run time steps count world s).outcome ≠ .unfinished) (more : Nat) :
    continuePass run time (steps + more) count world s =
      continuePass run time steps count world s := by
  fun_induction continuePass run time steps count world s with
  | case1 => exact absurd rfl ended
  | case2 steps count world s s' turned =>
    rw [Nat.succ_add, continuePass, turned]
  | case3 steps count world s s' turned ih =>
    rw [Nat.succ_add, continuePass, turned]
    exact ih ended
  | case4 steps count world s s' task turned world' moves failure went =>
    rw [Nat.succ_add, continuePass, turned]
    simp only [went]
  | case5 steps count world s s' task turned world' moves went later ih =>
    rw [Nat.succ_add, continuePass, turned]
    simp only [went]
    rw [ih ended]

section

variable {weight : α → Nat}

theorem work_perm {tasks others : List (Armed α)} (same : tasks.Perm others) :
    work weight tasks = work weight others := by
  induction same with
  | nil => rfl
  | cons task _ ih => rw [work, work, ih]
  | swap task other rest =>
    simp only [work]
    omega
  | trans _ _ first second => rw [first, second]

theorem work_sublist {tasks others : List (Armed α)} (fewer : tasks.Sublist others) :
    work weight tasks ≤ work weight others := by
  induction fewer with
  | slnil => exact Nat.le_refl _
  | cons task _ ih => exact Nat.le_trans ih (Nat.le_add_left _ _)
  | cons_cons task _ ih => exact Nat.add_le_add_left ih _

/-- The work that some moves add: the tasks that they arm, and what can come of them. -/
def added (weight : α → Nat) : List (Move α) → Nat
  | [] => 0
  | .arm _ task :: rest => 1 + weight task + added weight rest
  | _ :: rest => added weight rest

theorem load_gather (s : Schedule α) : s.gather.load weight = s.load weight := work_perm (gather_perm s)

theorem load_arm (s : Schedule α) (delay : Span) (task : α) :
    (s.arm delay task).1.load weight = 1 + weight task + s.load weight := rfl

/-- Only arming adds work. -/
theorem load_move_le (s : Schedule α) (x : Move α) (other : ∀ delay task, x ≠ .arm delay task) :
    (s.move x).load weight ≤ s.load weight := by
  cases x with
  | arm delay task => exact absurd rfl (other delay task)
  | cancel id => exact Nat.le_of_eq (congrArg (work weight) (stored_settle s id .cancelled))
  | clear =>
    change s.clear.load weight ≤ _
    rw [load, stored_clear]
    exact Nat.zero_le _
  | advance by_ => exact Nat.le_refl _
  | count => exact Nat.le_of_eq (load_gather s)
  | look => exact Nat.le_trans (work_sublist List.filter_sublist) (Nat.le_of_eq (load_gather s))

theorem load_after (weight : α → Nat) (s : Schedule α) (moves : List (Move α)) :
    (s.after moves).load weight ≤ s.load weight + added weight moves := by
  induction moves generalizing s with
  | nil => exact Nat.le_refl _
  | cons x rest ih =>
    have later := ih (s.move x)
    change ((s.move x).after rest).load weight ≤ _
    cases x with
    | arm delay task =>
      have first : (s.move (.arm delay task)).load weight = _ := load_arm s delay task
      rw [added]
      omega
    | cancel | clear | advance | count | look =>
      refine Nat.le_trans later (Nat.add_le_add_right (load_move_le s _ ?_) _)
      intro delay task same
      cases same

/-- A turn that finds something due takes out one task with its work. -/
theorem load_turn (weight : α → Nat) {s s' : Schedule α} {time : Nat} {found : Turn α}
    (turned : s.turn time = (s', found)) (busy : found ≠ .idle) :
    ∃ task, s'.load weight + (1 + weight task) = s.load weight ∧ ∀ t ∈ found.ran, t.task = task := by
  have before {task rest} (gathered : s.gather.lobby = task :: rest) :
      (s.only rest).load weight + (1 + weight task.task) = s.load weight := by
    have whole : s.load weight = work weight s.gather.lobby := (load_gather s).symm
    rw [whole, gathered, Nat.add_comm]
    rfl
  rcases turn_cases s time with
    ⟨moved, -⟩ | ⟨task, rest, gathered, -, ⟨-, moved⟩ | ⟨-, moved⟩⟩ <;> rw [turned] at moved <;>
    cases moved
  · exact absurd rfl busy
  · exact ⟨task.task, before gathered, fun t member => absurd member List.not_mem_nil⟩
  · refine ⟨task.task, ?_, fun t member => by rw [List.mem_singleton.mp member]⟩
    rw [load, stored_settle]
    exact before gathered

/-- A pass ends if no task adds more work than it weighs and there are more steps than work. -/
theorem continuePass_ends (bounded : ∀ world s task, added weight (run world s task).2.1 ≤ weight task)
    {time steps count : Nat} {world : σ} {s : Schedule α} (enough : s.load weight < steps) :
    (continuePass run time steps count world s).outcome ≠ .unfinished := by
  fun_induction continuePass run time steps count world s with
  | case1 => exact absurd enough (Nat.not_lt_zero _)
  | case2 | case4 =>
    intro same
    cases same
  | case3 steps count world s s' turned ih =>
    obtain ⟨_, taken, -⟩ := load_turn weight turned (by simp)
    exact ih (by omega)
  | case5 steps count world s s' task turned world' moves went later ih =>
    obtain ⟨_, taken, same⟩ := load_turn weight turned (by simp)
    have more := load_after weight s' moves
    have within := bounded world s' task.task
    rw [went, same task (List.mem_singleton.mpr rfl)] at within
    dsimp only at within
    exact ih (by omega)

end

end Schedule

/-! ### Passes over timers and over scripts -/

theorem Detector.expire_ends (d : Detector) :
    (d.timers.runDue ring (d.timers.load (fun _ => 0) + 1) ()).outcome ≠ .unfinished :=
  Schedule.continuePass_ends (fun _ _ _ => Nat.le_refl 0) (Nat.lt_succ_self _)

namespace Rehearsal

/-- What a script does adds no more work than its size says. -/
theorem added_moves (script : List Script) (r : Rehearsal) :
    Schedule.added Script.Chore.weight (r.moves script) ≤ Script.sizes script := by
  induction script generalizing r with
  | nil => exact Nat.le_refl _
  | cons step rest ih =>
    have later := ih (r.perform step)
    rw [moves, Script.sizes]
    cases step with
    | arm label delay body failure =>
      rw [Script.size]
      exact Nat.add_le_add_left later _
    | cancel label =>
      have what : r.move? (.cancel label) = (r.handle? label).map .cancel := rfl
      rw [Script.size, Nat.zero_add, what]
      cases r.handle? label with
      | none => exact later
      | some id => exact later
    | advance time =>
      rw [Script.size, Nat.zero_add]
      exact later

theorem trigger_ends (r : Rehearsal) :
    (r.schedule.runDue run (r.schedule.load Script.Chore.weight + 1) r.handles).outcome ≠
      .unfinished :=
  Schedule.continuePass_ends (fun handles schedule chore => added_moves chore.body ⟨handles, schedule⟩)
    (Nat.lt_succ_self _)

end Rehearsal

end Cohort
