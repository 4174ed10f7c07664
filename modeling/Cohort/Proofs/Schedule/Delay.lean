import Cohort.Proofs.Schedule.Passes

/-! Delays and due times. No task runs before it is due, however the clock moves forward. That it waits
out its delay is another matter: of a delay the clock sees the low 64 bits, and nothing is due beyond the
clock's range, so the due time is the reading and the delay together exactly where the range has room
for both. -/

namespace Cohort.Schedule

variable {α : Type} {s : Schedule α}

/-! ### Along a run -/

/-- Something holds of every step and of the schedule in which it is taken. -/
def Along (P : Schedule α → Step α → Prop) (s : Schedule α) : List (Step α) → Prop
  | [] => True
  | x :: rest => P s x ∧ Along P (s.step x) rest

theorem along_append {P : Schedule α → Step α → Prop} {first second : List (Step α)} :
    s.Along P (first ++ second) ↔ s.Along P first ∧ (s.through first).Along P second := by
  induction first generalizing s with
  | nil => exact (true_and _).to_iff.symm
  | cons x rest ih => exact (and_congr_right fun _ => ih).trans and_assoc.symm

/-- The step leaves the clock in its range. -/
def InRange (s : Schedule α) : Step α → Prop
  | .move (.advance by_) => s.now + by_.nanos < horizon
  | _ => True

/-- A turn goes by a reading that the clock has reached. -/
def Timely (s : Schedule α) : Step α → Prop
  | .turn time => time ≤ s.now
  | _ => True

theorem forward_of_inRange {x : Step α} (inRange : s.InRange x) :
    ∀ a b, .advanced a b ∈ s.happens x → a ≤ b := by
  intro a b advanced
  cases x with
  | turn time =>
    obtain ⟨_, -, other⟩ := mem_happens_turn.mp advanced
    cases other
  | move x =>
    cases x with
    | advance by_ =>
      obtain ⟨rfl, rfl⟩ : a = s.now ∧ b = (s.advance by_).now := by simpa [happens] using advanced
      have inRange : s.now + by_.nanos < horizon := inRange
      have small : by_.nanos < horizon := Nat.lt_of_le_of_lt (Nat.le_add_left _ _) inRange
      rw [Schedule.advance, Nat.mod_eq_of_lt small, Nat.mod_eq_of_lt inRange]
      exact Nat.le_add_right _ _
    | cancel id => cases (mem_happens_cancel.mp advanced).2
    | arm | clear | count | look => simp [happens] at advanced

theorem timely_of_readings {steps : List (Step α)} (inRange : s.Along InRange steps)
    (readings : ∀ time, .turn time ∈ steps → time ≤ s.now) : s.Along Timely steps := by
  induction steps generalizing s with
  | nil => trivial
  | cons x rest ih =>
    constructor
    · cases x with
      | turn time => exact readings time List.mem_cons_self
      | move x => trivial
    · have onward := now_step (forward_of_inRange inRange.1)
      apply ih inRange.2
      exact fun time member => Nat.le_trans (readings time (List.mem_cons_of_mem x member)) onward

section
variable {σ ε : Type} {run : σ → Schedule α → α → σ × List (Move α) × Option ε}

/-- While the clock stays in its range, no pass is ahead of it. -/
theorem timely_called {calls : List (Call σ α)} (inRange : s.Along InRange (s.calledSteps run calls)) :
    s.Along Timely (s.calledSteps run calls) := by
  induction calls generalizing s with
  | nil => trivial
  | cons c rest ih =>
    obtain ⟨now, later⟩ := along_append.mp inRange
    rw [calledSteps, along_append]
    rw [through_callSteps] at later ⊢
    refine ⟨?_, ih later⟩
    cases c with
    | move x => exact ⟨trivial, trivial⟩
    | pass world steps =>
      exact timely_of_readings now fun time member => Nat.le_of_eq (reading_of_turn member)

end

/-! ### Due times -/

/-- What runs under the number that a task got when it was armed is that task. -/
theorem eq_of_ran_armed (coherent : s.Coherent) {delay : Span} {task : α} {between : List (Step α)}
    {time : Nat} {t : Armed α}
    (ran : (((s.arm delay task).1.through between).turn time).2 = .runs t) (number : t.id = s.nextId) :
    t = ⟨s.nextId, dueAt s.now delay, task⟩ := by
  have armed := coherent.arm delay task
  obtain ⟨there, -, -⟩ := (armed.through between).of_ran ran
  rcases ((waiting_through armed between t).mp there).1 with first | later
  · exact armed.eq_of_id (mem_waiting.mp first).1 List.mem_cons_self number
  · have number' := le_of_armed armed later
    rw [nextId_arm, number] at number'
    exact absurd number' (Nat.not_succ_le_self _)

/-- Wherever a task is armed with `delay` at the clock's reading `reading`, it runs neither in a pass that
reads the clock before `due` nor while the clock is before `due`, whatever was done before and whatever
is done later, as long as from the call on that arms it nothing takes the clock out of its range. -/
def WaitsUntil (reading : Nat) (delay : Span) (due : Nat) : Prop :=
  ∀ (σ α ε : Type) (run : σ → Schedule α → α → σ × List (Move α) × Option ε) (start : UInt64)
    (earlier later : List (Call σ α)),
    let met := ({ now := start.toNat } : Schedule α).called run earlier
    met.Along InRange (met.calledSteps run later) →
    ∀ before task between time after,
      met.calledSteps run later =
        before ++ .move (.arm delay task) :: (between ++ .turn time :: after) →
      let arming := met.through before
      let there := (arming.arm delay task).1.through between
      arming.now = reading →
      ∀ t, (there.turn time).2 = .runs t → t.id = arming.nextId → due ≤ time ∧ due ≤ there.now

theorem waitsUntil_dueAt (reading : Nat) (delay : Span) :
    WaitsUntil reading delay (dueAt reading delay) := by
  intro σ α ε run start earlier later met inRange before task between time after split arming there read t
    ran number
  have coherent : met.Coherent := (coherent_start start).called earlier
  obtain rfl := eq_of_ran_armed (coherent.through before) ran number
  have timely : time ≤ there.now := by
    have timely := timely_called inRange
    rw [split] at timely
    exact (along_append.mp (along_append.mp timely).2.2).2.1
  have due : dueAt reading delay ≤ time := by
    rw [← read]
    exact (((coherent.through before).arm delay task).through between |>.of_ran ran).2.1
  exact ⟨due, Nat.le_trans due timely⟩

theorem WaitsUntil.mono {reading due earlier : Nat} {delay : Span} (waits : WaitsUntil reading delay due)
    (before : earlier ≤ due) : WaitsUntil reading delay earlier := by
  intro σ α ε run start first later met inRange front task between time after split arming there read t
    ran number
  obtain ⟨reached, passed⟩ :=
    waits σ α ε run start first later inRange front task between time after split read t ran number
  exact ⟨Nat.le_trans before reached, Nat.le_trans before passed⟩

/-! ### Waiting exactly so long -/

theorem dueAt_lt (reading : Nat) (delay : Span) : dueAt reading delay < horizon :=
  Nat.lt_of_le_of_lt (Nat.min_le_right _ _) (by decide)

theorem le_dueAt {reading : Nat} (inside : reading < horizon) (delay : Span) :
    reading ≤ dueAt reading delay :=
  Nat.le_min.mpr ⟨Nat.le_add_right _ _, Nat.le_pred_of_lt inside⟩

/-- How far a due time is from the reading at which the task is armed. -/
def wait (reading : Nat) (delay : Span) : Span := ⟨dueAt reading delay - reading⟩

theorem add_wait {reading : Nat} (inside : reading < horizon) (delay : Span) :
    reading + (wait reading delay).nanos = dueAt reading delay :=
  Nat.add_sub_cancel' (le_dueAt inside delay)

/-- A task that does nothing. -/
def idle (_ : Unit) (_ : Schedule Unit) (_ : Unit) : Unit × List (Move Unit) × Option Empty :=
  ((), [], none)

/-- A task is armed with `delay`, the clock moves on by `span`, and a pass takes a turn. -/
def awaited (delay span : Span) : List (Call Unit Unit) :=
  [.move (.arm delay ()), .move (.advance span), .pass () 1]

theorem calledSteps_awaited {reading : Nat} (inside : reading < horizon) (delay : Span) :
    ({ now := reading } : Schedule Unit).calledSteps idle (awaited delay (wait reading delay)) =
      [.move (.arm delay ()), .move (.advance (wait reading delay)), .turn (dueAt reading delay)] := by
  have alone (time : Nat) (s : Schedule Unit) : passSteps idle time 1 () s = [.turn time] := by
    rw [passSteps]
    split <;> rfl
  have arrived : (reading + (wait reading delay).nanos % horizon) % horizon = dueAt reading delay := by
    have small : (wait reading delay).nanos < horizon :=
      Nat.lt_of_le_of_lt (Nat.sub_le _ _) (dueAt_lt reading delay)
    rw [Nat.mod_eq_of_lt small, add_wait inside, Nat.mod_eq_of_lt (dueAt_lt reading delay)]
  simp only [awaited, calledSteps, callSteps, alone]
  rw [← arrived]
  rfl

theorem turn_alone {t : Armed α} {now time : Nat} (number : t.id = 0) (due : t.due ≤ time) :
    (turn ⟨now, [t], [], #[.pending]⟩ time).2 = .runs t := by
  simp [turn, takeDue, gather, insert, due, settle, isPending, number]

/-- No task waits longer than until it is due: some run reaches the due time, and there it runs. -/
theorem WaitsUntil.le_dueAt {reading : UInt64} {delay : Span} {due : Nat}
    (waits : WaitsUntil reading.toNat delay due) : due ≤ dueAt reading.toNat delay := by
  have inside : reading.toNat < horizon := reading.toNat_lt
  have steps := calledSteps_awaited inside delay
  have inRange : ({ now := reading.toNat } : Schedule Unit).Along InRange
      (calledSteps idle { now := reading.toNat } (awaited delay (wait reading.toNat delay))) := by
    have room : reading.toNat + (wait reading.toNat delay).nanos < horizon := by
      rw [add_wait inside]
      exact dueAt_lt _ _
    rw [steps]
    exact ⟨trivial, room, trivial, trivial⟩
  have runs := waits Unit Unit Empty idle reading [] _ inRange [] ()
    [.move (.advance (wait reading.toNat delay))] _ [] steps rfl
    ⟨0, dueAt reading.toNat delay, ()⟩ (turn_alone rfl (Nat.le_refl _)) rfl
  exact runs.1

theorem waitsUntil_iff (reading : UInt64) (delay : Span) (due : Nat) :
    WaitsUntil reading.toNat delay due ↔ due ≤ dueAt reading.toNat delay := by
  constructor
  · exact WaitsUntil.le_dueAt
  · exact (waitsUntil_dueAt reading.toNat delay).mono

/-- A task waits out its delay from the reading at which it is armed exactly where the clock's range has
room for both. -/
theorem waits_out_delay_iff (reading : UInt64) (delay : Span) :
    WaitsUntil reading.toNat delay (reading.toNat + delay.nanos) ↔
      reading.toNat + delay.nanos < horizon := by
  rw [waitsUntil_iff, dueAt, Nat.le_min]
  constructor
  · rintro ⟨-, room⟩
    exact Nat.lt_of_le_of_lt room (by decide)
  · intro room
    have small : delay.nanos < horizon := Nat.lt_of_le_of_lt (Nat.le_add_left _ _) room
    rw [Nat.mod_eq_of_lt small]
    exact ⟨Nat.le_refl _, Nat.le_pred_of_lt room⟩

/-- Of a delay of 18446744074 seconds, the clock sees less than a third of a second: armed at zero, the
task has run when the clock reads 290448384 ns. -/
theorem overlong_delay_runs_early :
    let delay := Span.ofSecs 18446744074
    ¬ WaitsUntil (0 : UInt64).toNat delay ((0 : UInt64).toNat + delay.nanos) ∧
      let met := ({ now := 0 } : Schedule Unit).called idle ((awaited delay ⟨290448384⟩).take 2)
      met.now = 290448384 ∧ met.now < 0 + delay.nanos ∧
        (met.runDue idle 1 ()).ran = [⟨0, 290448384, ()⟩] := by
  intro delay
  constructor
  · rw [waitsUntil_iff]
    decide
  · exact ⟨by decide +kernel, by decide +kernel, by decide +kernel⟩

end Cohort.Schedule
