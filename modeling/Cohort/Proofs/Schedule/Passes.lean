import Cohort.Proofs.Schedule.Runs

/-! Passes as steps: what a pass does with its schedule is a run of turns and of what the tasks do in
between, so all that holds of runs holds of passes. -/

namespace Cohort.Schedule

variable {σ α ε : Type} {run : σ → Schedule α → α → σ × List (Move α) × Option ε}

/-- What a pass does with the schedule, step by step. -/
def passSteps (run : σ → Schedule α → α → σ × List (Move α) × Option ε) (time : Nat) :
    Nat → σ → Schedule α → List (Step α)
  | 0, _, _ => []
  | steps + 1, world, s =>
    .turn time ::
      match s.turn time with
      | (_, .idle) => []
      | (s, .stale) => passSteps run time steps world s
      | (s, .runs task) =>
        match run world s task.task with
        | (_, moves, some _) => moves.map .move
        | (world, moves, none) =>
          moves.map .move ++ passSteps run time steps world (s.after moves)

theorem through_moves (s : Schedule α) (moves : List (Move α)) :
    s.through (moves.map .move) = s.after moves := List.foldl_map

theorem ranIn_log_moves (s : Schedule α) (moves : List (Move α)) :
    ranIn (s.log (moves.map .move)) = [] := by
  induction moves generalizing s with
  | nil => rfl
  | cons x rest ih => rw [List.map_cons, log, ranIn_append, ranIn_move, ih, List.append_nil]

theorem through_turn {s s' : Schedule α} {time : Nat} {found : Turn α}
    (turned : s.turn time = (s', found)) (rest : List (Step α)) :
    s.through (.turn time :: rest) = s'.through rest :=
  congrArg (fun moved => Schedule.through moved.1 rest) turned

theorem ranIn_log_turn {s s' : Schedule α} {time : Nat} {found : Turn α}
    (turned : s.turn time = (s', found)) (rest : List (Step α)) :
    ranIn (s.log (.turn time :: rest)) = found.ran ++ ranIn (s'.log rest) := by
  have stepped : s.step (.turn time) = s' := congrArg Prod.fst turned
  rw [log, ranIn_append, ranIn_turn, turned, stepped]

/-- The steps of a pass lead where the pass does, and what they say ran is what the pass says. -/
theorem passSteps_spec (run : σ → Schedule α → α → σ × List (Move α) × Option ε) (time : Nat)
    (steps count : Nat) (world : σ) (s : Schedule α) :
    s.through (passSteps run time steps world s) =
        (continuePass run time steps count world s).schedule ∧
      ranIn (s.log (passSteps run time steps world s)) =
        (continuePass run time steps count world s).ran := by
  fun_induction continuePass run time steps count world s with
  | case1 => exact ⟨rfl, rfl⟩
  | case2 steps count world s s' turned =>
    rw [passSteps, turned, through_turn turned, ranIn_log_turn turned]
    exact ⟨rfl, rfl⟩
  | case3 steps count world s s' turned ih =>
    rw [passSteps, turned, through_turn turned, ranIn_log_turn turned]
    exact ih
  | case4 steps count world s s' task turned world' moves failure went =>
    rw [passSteps, turned, through_turn turned, ranIn_log_turn turned]
    simp only [went]
    rw [through_moves, ranIn_log_moves]
    exact ⟨rfl, rfl⟩
  | case5 steps count world s s' task turned world' moves went later ih =>
    rw [passSteps, turned, through_turn turned, ranIn_log_turn turned]
    simp only [went]
    rw [through_append, log_append, ranIn_append, through_moves, ranIn_log_moves]
    exact ⟨ih.1, congrArg (task :: ·) ih.2⟩

theorem through_passSteps (time steps : Nat) (world : σ) (s : Schedule α) :
    s.through (passSteps run time steps world s) = (continuePass run time steps 0 world s).schedule :=
  (passSteps_spec run time steps 0 world s).1

/-- All turns of a pass go by the reading with which it began. -/
theorem reading_of_turn {time other steps : Nat} {world : σ} {s : Schedule α}
    (member : .turn other ∈ passSteps run time steps world s) : other = time := by
  induction steps generalizing world s with
  | zero => cases member
  | succ steps ih =>
    have notMoved (moves : List (Move α)) : .turn other ∉ moves.map Step.move := by simp
    rw [passSteps] at member
    rcases List.mem_cons.mp member with now | later
    · cases now
      rfl
    · split at later
      · cases later
      · exact ih later
      · split at later
        · exact absurd later (notMoved _)
        · exact ih ((List.mem_append.mp later).resolve_left (notMoved _))

theorem Coherent.after {s : Schedule α} (coherent : s.Coherent) (moves : List (Move α)) :
    (s.after moves).Coherent := through_moves s moves ▸ coherent.through _

theorem Coherent.turned {s s' : Schedule α} (coherent : s.Coherent) {time : Nat} {found : Turn α}
    (turned : s.turn time = (s', found)) : s'.Coherent := by
  have kept := coherent.turn time
  rwa [turned] at kept

/-- A pass that ends well has counted what ran, and leaves nothing that is due. -/
theorem of_done {time steps count n : Nat} {world : σ} {s : Schedule α} (coherent : s.Coherent)
    (ended : (continuePass run time steps count world s).outcome = .done n) :
    n = count + (continuePass run time steps count world s).ran.length ∧
      ∀ t ∈ (continuePass run time steps count world s).schedule.stored, time < t.due := by
  fun_induction continuePass run time steps count world s with
  | case1 => cases ended
  | case2 steps count world s s' turned =>
    cases ended
    refine ⟨rfl, fun t member => coherent.lt_due_of_idle (congrArg Prod.snd turned) t ?_⟩
    exact (turn_fields s time).2.2 t (by rw [turned]; exact member)
  | case3 steps count world s s' turned ih => exact ih (coherent.turned turned) ended
  | case4 => cases ended
  | case5 steps count world s s' task turned world' moves went later ih =>
    obtain ⟨counted, none⟩ := ih ((coherent.turned turned).after moves) ended
    exact ⟨counted.trans (Nat.add_right_comm count 1 _), none⟩

/-- A pass that fails has run the task that failed, and that one last. -/
theorem of_failed {time steps count id : Nat} {failure : ε} {world : σ} {s : Schedule α}
    (ended : (continuePass run time steps count world s).outcome = .failed id failure) :
    ∃ t, (continuePass run time steps count world s).ran.getLast? = some t ∧ t.id = id := by
  fun_induction continuePass run time steps count world s with
  | case1 => cases ended
  | case2 => cases ended
  | case3 steps count world s s' turned ih => exact ih ended
  | case4 steps count world s s' task turned world' moves failure went =>
    cases ended
    exact ⟨task, rfl, rfl⟩
  | case5 steps count world s s' task turned world' moves went later ih =>
    obtain ⟨t, last, same⟩ := ih ended
    refine ⟨t, ?_, same⟩
    rw [List.getLast?_cons, last]
    rfl

/-! ### Calls -/

/-- What the surroundings do with a schedule: something with the schedule itself, or a pass in the
world as they have it then. -/
inductive Call (σ α : Type) where
  | move (x : Move α)
  | pass (world : σ) (steps : Nat)

def call (run : σ → Schedule α → α → σ × List (Move α) × Option ε) (s : Schedule α) :
    Call σ α → Schedule α
  | .move x => s.move x
  | .pass world steps => (s.runDue run steps world).schedule

/-- The schedule after some calls. -/
def called (run : σ → Schedule α → α → σ × List (Move α) × Option ε) (s : Schedule α)
    (calls : List (Call σ α)) : Schedule α := calls.foldl (call run) s

/-- What a call does with the schedule, step by step. -/
def callSteps (run : σ → Schedule α → α → σ × List (Move α) × Option ε) (s : Schedule α) :
    Call σ α → List (Step α)
  | .move x => [.move x]
  | .pass world steps => passSteps run s.now steps world s

/-- All that is done with the schedule in some calls, in order. -/
def calledSteps (run : σ → Schedule α → α → σ × List (Move α) × Option ε) (s : Schedule α) :
    List (Call σ α) → List (Step α)
  | [] => []
  | c :: rest => s.callSteps run c ++ (s.call run c).calledSteps run rest

theorem called_append (s : Schedule α) (first second : List (Call σ α)) :
    s.called run (first ++ second) = (s.called run first).called run second := List.foldl_append

theorem through_callSteps (s : Schedule α) (c : Call σ α) :
    s.through (s.callSteps run c) = s.call run c := by
  cases c with
  | move x => rfl
  | pass world steps => exact through_passSteps s.now steps world s

theorem through_calledSteps (s : Schedule α) (calls : List (Call σ α)) :
    s.through (s.calledSteps run calls) = s.called run calls := by
  induction calls generalizing s with
  | nil => rfl
  | cons c rest ih =>
    rw [calledSteps, through_append, through_callSteps, ih]
    rfl

theorem calledSteps_append (s : Schedule α) (first second : List (Call σ α)) :
    s.calledSteps run (first ++ second) =
      s.calledSteps run first ++ (s.called run first).calledSteps run second := by
  induction first generalizing s with
  | nil => rfl
  | cons c rest ih =>
    rw [List.cons_append, calledSteps, calledSteps, ih, List.append_assoc]
    rfl

theorem Coherent.called {s : Schedule α} (coherent : s.Coherent) (calls : List (Call σ α)) :
    (s.called run calls).Coherent := through_calledSteps s calls ▸ coherent.through _

end Cohort.Schedule
