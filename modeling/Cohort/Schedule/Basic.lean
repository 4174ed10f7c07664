import Cohort.Span

/-!
Delayed tasks. A task is armed with a delay and falls due at the clock's reading plus that delay;
a pass runs what is due, in order of due time and then of arming, together with what running tasks
arm for a time already reached. The clock counts nanoseconds in 64 bits.

A new task waits in the intake until somebody drives the schedule; from there it goes to the lobby,
which is in running order. Whether it may still run stands in neither queue but in its state, which
whoever armed it shares: cancelling settles the state, and the entry is dropped when a pass meets it.

Numbers are given out by two counters, and neither is taken past 64 bits. A task's number is how many
tasks were armed before it, without a bound: a counter of that width would give a number twice after
2^64 tasks, and what is proved of schedules does not reach there. The detector's requests have a
counter of that width, which comes round in `Detector.request`; what is proved of them is about a
`Detector.Ward`, and that is the only place where the last number is an end.
-/

namespace Cohort

inductive TaskState where
  | pending
  | fired
  | cancelled
  deriving DecidableEq, Repr

structure Armed (α : Type) where
  id : Nat
  due : Nat
  task : α
  deriving DecidableEq, Repr

/-- Due earlier, or armed earlier for the same time. -/
def Armed.Before {α : Type} (a b : Armed α) : Prop := a.due < b.due ∨ a.due = b.due ∧ a.id < b.id

instance {α : Type} (a b : Armed α) : Decidable (a.Before b) :=
  inferInstanceAs (Decidable (_ ∨ _ ∧ _))

structure Schedule (α : Type) where
  now : Nat := 0
  /-- New tasks, the latest first. -/
  intake : List (Armed α) := []
  /-- The tasks taken from the intake, in the order in which they will run. -/
  lobby : List (Armed α) := []
  /-- The states of all tasks ever armed, by number. -/
  states : Array TaskState := #[]
  deriving Repr

namespace Schedule

variable {α ε σ : Type}

/-- Where the clock's range ends. -/
def horizon : Nat := UInt64.size

/-- When a task falls due: of the delay the clock sees the low 64 bits, and no due time lies
beyond its range. -/
def dueAt (now : Nat) (delay : Span) : Nat := min (now + delay.nanos % horizon) (horizon - 1)

def nextId (s : Schedule α) : Nat := s.states.size

def stored (s : Schedule α) : List (Armed α) := s.intake ++ s.lobby

def arm (s : Schedule α) (delay : Span) (task : α) : Schedule α × Nat :=
  let armed : Armed α := ⟨s.nextId, dueAt s.now delay, task⟩
  ({ s with intake := armed :: s.intake, states := s.states.push .pending }, s.nextId)

def isPending (s : Schedule α) (id : Nat) : Bool := s.states[id]? == some .pending

def hasFired (s : Schedule α) (id : Nat) : Bool := s.states[id]? == some .fired

def settle (s : Schedule α) (id : Nat) (state : TaskState) : Schedule α × Bool :=
  if s.isPending id then ({ s with states := s.states.setIfInBounds id state }, true) else (s, false)

def cancel (s : Schedule α) (id : Nat) : Schedule α × Bool := s.settle id .cancelled

/-- Moves the clock, which wraps at the end of its range. -/
def advance (s : Schedule α) (by_ : Span) : Schedule α :=
  { s with now := (s.now + by_.nanos % horizon) % horizon }

def insert (task : Armed α) : List (Armed α) → List (Armed α)
  | [] => [task]
  | other :: rest => if other.Before task then other :: insert task rest else task :: other :: rest

def gather (s : Schedule α) : Schedule α :=
  { s with intake := [], lobby := s.intake.foldr insert s.lobby }

def clear (s : Schedule α) : Schedule α :=
  let s := s.gather
  { s.lobby.foldl (fun s task => (s.cancel task.id).1) s with lobby := [] }

def count (s : Schedule α) : Schedule α × Nat :=
  let s := s.gather
  (s, s.lobby.countP fun task => s.isPending task.id)

/-- Drops the tasks that are no longer pending, and gives the time until the first that is left is
due. -/
def look (s : Schedule α) : Schedule α × Option Span :=
  let s := s.gather
  let s := { s with lobby := s.lobby.filter fun task => s.isPending task.id }
  (s, s.lobby.head?.map fun task => ⟨task.due - s.now⟩)

def pending (s : Schedule α) : Nat := s.count.2

def nextDueIn (s : Schedule α) : Option Span := s.look.2

inductive Move (α : Type) where
  | arm (delay : Span) (task : α)
  | cancel (id : Nat)
  | clear
  | advance (by_ : Span)
  | count
  | look

def move (s : Schedule α) : Move α → Schedule α
  | .arm delay task => (s.arm delay task).1
  | .cancel id => (s.cancel id).1
  | .clear => s.clear
  | .advance by_ => s.advance by_
  | .count => s.count.1
  | .look => s.look.1

def after (s : Schedule α) (moves : List (Move α)) : Schedule α := moves.foldl move s

/-- Takes out the first task if it is due at `time`. -/
def takeDue (s : Schedule α) (time : Nat) : Option (Armed α) × Schedule α :=
  let s := s.gather
  match s.lobby with
  | task :: rest => if task.due ≤ time then (some task, { s with lobby := rest }) else (none, s)
  | [] => (none, s)

inductive Turn (α : Type) where
  | idle
  /-- What was due had been cancelled. -/
  | stale
  | runs (task : Armed α)

/-- One turn of a pass at `time`: the first task that is due leaves the queues, and it runs unless
it was cancelled. -/
def turn (s : Schedule α) (time : Nat) : Schedule α × Turn α :=
  match s.takeDue time with
  | (none, s) => (s, .idle)
  | (some task, s) =>
    match s.settle task.id .fired with
    | (s, true) => (s, .runs task)
    | (s, false) => (s, .stale)

inductive Outcome (ε : Type) where
  /-- Nothing was left that is due; so many tasks ran. -/
  | done (count : Nat)
  /-- The task with this number failed. -/
  | failed (id : Nat) (failure : ε)
  /-- More was due than the pass had steps for. -/
  | unfinished
  deriving DecidableEq, Repr

/-- The number and the failure of the task that ended a pass. -/
def Outcome.failure? : Outcome ε → Option (Nat × ε)
  | .failed id failure => some (id, failure)
  | _ => none

/-- How a pass went; `ran` has what ran, in order. -/
structure Pass (σ α ε : Type) where
  world : σ
  schedule : Schedule α
  ran : List (Armed α)
  outcome : Outcome ε

/-- Goes on with a pass at `time` in which `count` tasks have run. Running a task in a world gives
the world afterwards, what the task did with the schedule, and its failure if it failed. -/
def continuePass (run : σ → Schedule α → α → σ × List (Move α) × Option ε) (time : Nat) :
    Nat → Nat → σ → Schedule α → Pass σ α ε
  | 0, _, world, s => ⟨world, s, [], .unfinished⟩
  | steps + 1, count, world, s =>
    match s.turn time with
    | (s, .idle) => ⟨world, s, [], .done count⟩
    | (s, .stale) => continuePass run time steps count world s
    | (s, .runs task) =>
      match run world s task.task with
      | (world, moves, some failure) => ⟨world, s.after moves, [task], .failed task.id failure⟩
      | (world, moves, none) =>
        let later := continuePass run time steps (count + 1) world (s.after moves)
        { later with ran := task :: later.ran }

/-- Runs what is due at the clock's reading, in at most `steps` steps. -/
def runDue (run : σ → Schedule α → α → σ × List (Move α) × Option ε) (steps : Nat) (world : σ)
    (s : Schedule α) : Pass σ α ε :=
  continuePass run s.now steps 0 world s

/-- How many tasks there are, and can come of them if each arms at most `weight` in turn. -/
def work (weight : α → Nat) : List (Armed α) → Nat
  | [] => 0
  | task :: rest => 1 + weight task.task + work weight rest

/-- The work in the queues: a pass that takes more steps ends. -/
def load (weight : α → Nat) (s : Schedule α) : Nat := work weight s.stored

/-- The account of a task's failure. -/
def failureText (id : Nat) : String := s!"scheduled task {id} failed"

end Schedule

end Cohort
