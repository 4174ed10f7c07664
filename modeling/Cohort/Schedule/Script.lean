import Cohort.Schedule.Basic

/-!
Tasks that act on their own schedule: they arm and cancel others, move the clock, and may fail.
-/

namespace Cohort

/-- What a scripted task does, each task under a label of its own. -/
inductive Script where
  | arm (label : Nat) (delay : Span) (body : List Script) (failure : Option String)
  | cancel (label : Nat)
  | advance (time : Span)

structure Script.Chore where
  label : Nat
  body : List Script
  failure : Option String

namespace Script

mutual

/-- How many tasks a script can arm, those of its tasks included. -/
def size : Script → Nat
  | .arm _ _ body _ => 1 + sizes body
  | .cancel _ => 0
  | .advance _ => 0

def sizes : List Script → Nat
  | [] => 0
  | s :: rest => size s + sizes rest

end

/-- How many tasks a task can lead to. -/
def Chore.weight (chore : Chore) : Nat := sizes chore.body

end Script

/-- A schedule of scripted tasks and the task that each label stands for now. -/
structure Rehearsal where
  handles : List (Nat × Nat) := []
  schedule : Schedule Script.Chore := {}

namespace Rehearsal

def handle? (r : Rehearsal) (label : Nat) : Option Nat := r.handles.lookup label

def cancel (r : Rehearsal) (label : Nat) : Rehearsal × Bool :=
  match r.handle? label with
  | none => (r, false)
  | some id =>
    let (schedule, cancelled) := r.schedule.cancel id
    ({ r with schedule := schedule }, cancelled)

/-- What a step of a script does with the schedule; a label that stands for no task does nothing. -/
def move? (r : Rehearsal) : Script → Option (Schedule.Move Script.Chore)
  | .arm label delay body failure => some (.arm delay ⟨label, body, failure⟩)
  | .cancel label => (r.handle? label).map .cancel
  | .advance time => some (.advance time)

/-- The labels after a step; that of a task just armed stands for the new task from now on. -/
def relabel (r : Rehearsal) : Script → List (Nat × Nat)
  | .arm label .. => (label, r.schedule.nextId) :: r.handles.filter (·.1 != label)
  | _ => r.handles

def perform (r : Rehearsal) (step : Script) : Rehearsal :=
  ⟨r.relabel step, r.schedule.after (r.move? step).toList⟩

def moves (r : Rehearsal) : List Script → List (Schedule.Move Script.Chore)
  | [] => []
  | step :: rest => (r.move? step).toList ++ moves (r.perform step) rest

def run (handles : List (Nat × Nat)) (schedule : Schedule Script.Chore) (chore : Script.Chore) :
    List (Nat × Nat) × List (Schedule.Move Script.Chore) × Option String :=
  let r : Rehearsal := ⟨handles, schedule⟩
  ((chore.body.foldl perform r).handles, r.moves chore.body, chore.failure)

/-- One pass at the clock's reading: the labels that ran, in order, and the failure that ended it. -/
def trigger (r : Rehearsal) : Rehearsal × List Nat × Option (Nat × String) :=
  let pass := r.schedule.runDue run (r.schedule.load Script.Chore.weight + 1) r.handles
  (⟨pass.world, pass.schedule⟩, pass.ran.map (·.task.label), pass.outcome.failure?)

end Rehearsal

end Cohort
