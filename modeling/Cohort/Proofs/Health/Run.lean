import Mathlib.Data.List.Induction
import Cohort.Proofs.Health.Table

/-! Runs of a detector. Between two events the surroundings may do with the schedule what they like:
move the clock, run a pass, lose a timer. What runs out comes back as an event, at any time or never. -/

namespace Cohort.Detector

/-- What may happen next to a detector. -/
inductive Move where
  | handle (event : Event)
  /-- The surroundings change the schedule. -/
  | timers (schedule : Schedule Event)
  | start
  | stop

def move (d : Detector) : Move → Detector × List Action
  | .handle event => d.handle event
  | .timers schedule => ({ d with timers := schedule }, [])
  | .start => (d.start, [])
  | .stop => (d.stop, [])

/-- The detector after some moves. -/
def after (d : Detector) : List Move → Detector
  | [] => d
  | x :: rest => (d.move x).1.after rest

/-- What the detector wants done in some moves, in order. -/
def wants (d : Detector) : List Move → List Action
  | [] => []
  | x :: rest => (d.move x).2 ++ (d.move x).1.wants rest

@[simp] theorem after_nil (d : Detector) : d.after [] = d := rfl

@[simp] theorem after_cons (d : Detector) (x : Move) (rest : List Move) :
    d.after (x :: rest) = (d.move x).1.after rest := rfl

theorem after_append (d : Detector) (first second : List Move) :
    d.after (first ++ second) = (d.after first).after second := by
  induction first generalizing d with
  | nil => rfl
  | cons x rest ih => exact ih _

theorem after_snoc (d : Detector) (moves : List Move) (x : Move) :
    d.after (moves ++ [x]) = ((d.after moves).move x).1 := by
  rw [after_append]
  rfl

/-- What holds at first, and after a move exactly unless the move is of a certain kind, holds all the time
exactly if no move is of that kind. -/
theorem always_iff {holds : Detector → Prop} {breaks : Detector → Move → Prop} {d : Detector}
    (begins : holds d) (step : ∀ part x, holds (d.after part) →
      (holds ((d.after part).move x).1 ↔ ¬ breaks (d.after part) x)) (moves : List Move) :
    (∀ part rest, moves = part ++ rest → holds (d.after part)) ↔
      ∀ part x rest, moves = part ++ x :: rest → ¬ breaks (d.after part) x := by
  constructor
  · intro always part x rest split
    have next := always (part ++ [x]) rest (by simp [split])
    rw [after_snoc] at next
    exact (step part x (always part (x :: rest) split)).mp next
  · intro unbroken part
    induction part using List.reverseRecOn with
    | nil => exact fun _ _ => begins
    | append_singleton earlier x ih =>
      intro rest split
      have split : moves = earlier ++ x :: rest := by simpa using split
      rw [after_snoc]
      exact (step earlier x (ih (x :: rest) split)).mpr (unbroken earlier x rest split)

/-- A member is in the detector's view whenever one of the moves begins. -/
def Stays (d : Detector) (m : Member) (moves : List Move) : Prop :=
  ∀ part x rest, moves = part ++ x :: rest → (d.after part).view.contains m = true

theorem stays_nil (d : Detector) (m : Member) : d.Stays m [] := by
  intro part x rest split
  simp at split

theorem stays_cons (d : Detector) (m : Member) (x : Move) (rest : List Move) :
    d.Stays m (x :: rest) ↔ d.view.contains m = true ∧ (d.move x).1.Stays m rest := by
  constructor
  · intro stays
    refine ⟨stays [] x rest rfl, ?_⟩
    intro part y later split
    exact stays (x :: part) y later (by simp [split])
  · rintro ⟨here, later⟩ part y tail split
    cases part with
    | nil => exact here
    | cons z part =>
      obtain ⟨rfl, remaining⟩ := List.cons.inj split
      exact later part y tail remaining

theorem stays_snoc {d : Detector} {m : Member} {moves : List Move} (stays : d.Stays m moves)
    (here : (d.after moves).view.contains m = true) (x : Move) : d.Stays m (moves ++ [x]) := by
  induction moves generalizing d with
  | nil => exact (stays_cons d m x []).mpr ⟨here, stays_nil _ m⟩
  | cons y rest ih =>
    obtain ⟨first, later⟩ := (stays_cons d m y rest).mp stays
    exact (stays_cons d m y (rest ++ [x])).mpr ⟨first, ih later here⟩

end Cohort.Detector
