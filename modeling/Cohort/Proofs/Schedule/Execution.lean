import Cohort.Proofs.Schedule.Passes

/-! The law of execution. Whatever is done with a schedule, by its surroundings and by the tasks that
it runs, a task runs at most once, when it is due, never after it was cancelled, and in its place. -/

namespace Cohort.Schedule

variable {σ α ε : Type}

theorem ids_nodup (happenings : List (Happening α))
    (once : happenings.Pairwise fun a b => ∀ id, a.Settles id → ¬ b.Settles id) :
    ((ranIn happenings).map (·.id)).Nodup := by
  rw [List.Nodup, List.pairwise_map, ranIn, List.pairwise_filterMap]
  refine once.imp fun apart first firstRan second secondRan same => ?_
  rename_i a b
  cases a <;> cases firstRan
  cases b <;> cases secondRan
  exact apart first.id rfl same.symm

theorem due_of_ran {s : Schedule α} (coherent : s.Coherent) {reading : Nat} {steps : List (Step α)}
    (readings : ∀ time, .turn time ∈ steps → time ≤ reading) {t : Armed α}
    (ran : .ran t ∈ s.log steps) : t.due ≤ reading := by
  induction steps generalizing s with
  | nil => cases ran
  | cons x rest ih =>
    rcases List.mem_append.mp ran with now | later
    · obtain ⟨-, time, rfl, due, -⟩ := of_ran coherent now
      exact Nat.le_trans due (readings time List.mem_cons_self)
    · exact ih (coherent.step x) (fun time member => readings time (List.mem_cons_of_mem x member))
        later

/-- In any run of calls, no task runs twice, and none runs after its cancellation. In each pass of
the run, every task that runs was armed and is due at the reading with which the pass began, and if
the clock does not go back meanwhile, they run in order of due time and then of arming. -/
theorem executed_once_in_order
    (run : σ → Schedule α → α → σ × List (Move α) × Option ε) (start : UInt64)
    (calls : List (Call σ α)) :
    let s : Schedule α := { now := start.toNat }
    let log := s.log (s.calledSteps run calls)
    ((ranIn log).map (·.id)).Nodup ∧
    (∀ earlier later id, log = earlier ++ .cancelled id :: later → ∀ t ∈ ranIn later, t.id ≠ id) ∧
    ∀ before world steps after, calls = before ++ .pass world steps :: after →
      let met := s.called run before
      let pass := met.runDue run steps world
      let part := met.log (met.callSteps run (.pass world steps))
      pass.ran = ranIn part ∧
      (∀ t ∈ pass.ran, .armed t ∈ log ∧ t.due ≤ met.now) ∧
      ((∀ a b, .advanced a b ∈ part → a ≤ b) → pass.ran.Pairwise Armed.Before) := by
  intro s log
  have coherent : s.Coherent := coherent_start start
  have once := settles_once coherent (s.calledSteps run calls)
  refine ⟨ids_nodup log once, fun earlier later id split t ran same => ?_, ?_⟩
  · rw [show s.log _ = _ from split] at once
    have apart := List.rel_of_pairwise_cons (List.pairwise_append.mp once).2.1 (mem_ranIn.mp ran)
    exact apart id rfl same
  · intro before world steps after split met pass part
    have kept : met.Coherent := coherent.called before
    have ranPart : pass.ran = ranIn part := (passSteps_spec run met.now steps 0 world met).2.symm
    have readings : ∀ time, .turn time ∈ met.callSteps run (.pass world steps) → time ≤ met.now :=
      fun time member => Nat.le_of_eq (reading_of_turn member)
    refine ⟨ranPart, fun t ran => ?_, fun forward => ?_⟩
    · have ran : .ran t ∈ part := mem_ranIn.mp (ranPart ▸ ran)
      refine ⟨?_, due_of_ran kept readings ran⟩
      have within : .ran t ∈ log := by
        change .ran t ∈ s.log _
        rw [split, calledSteps_append, log_append, through_calledSteps, calledSteps, log_append]
        exact List.mem_append_right _ (List.mem_append_left _ ran)
      exact (origin_of_ran coherent within).resolve_left List.not_mem_nil
    · rw [ranPart]
      exact ordered_log kept readings forward

/-- A first task arms a second for now, cancels a third and moves the clock; the second fails. -/
def relay (_ : Unit) (_ : Schedule Nat) : Nat → Unit × List (Move Nat) × Option String
  | 0 => ((), [.arm ⟨0⟩ 1, .cancel 2, .advance ⟨5⟩], none)
  | 1 => ((), [], some "failure")
  | _ => ((), [], none)

def relayCalls : List (Call Unit Nat) :=
  [.move (.arm ⟨10⟩ 0), .move (.arm ⟨20⟩ 2), .move (.arm ⟨10⟩ 2), .move (.advance ⟨10⟩)]

theorem relay_runs_in_order :
    let met := ({ now := (0 : UInt64).toNat } : Schedule Nat).called relay relayCalls
    (met.runDue relay 9 ()).ran.map (·.id) = [0, 3] ∧
      (met.runDue relay 9 ()).ran.Pairwise Armed.Before := by
  have law := executed_once_in_order relay 0 (relayCalls ++ [.pass () 9])
  refine ⟨rfl, (law.2.2 relayCalls () 9 [] rfl).2.2 fun a b member => ?_⟩
  have happened : .advanced a b ∈ ([.ran ⟨0, 10, 0⟩, .armed ⟨3, 10, 1⟩, .cancelled 2,
      .advanced 10 15, .ran ⟨3, 10, 1⟩] : List (Happening Nat)) := member
  obtain ⟨rfl, rfl⟩ : a = 10 ∧ b = 15 := by simpa using happened
  decide

end Cohort.Schedule
