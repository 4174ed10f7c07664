/-!
What a simulation does next. Tasks that are ready run in the order in which they became ready, each
at most once for any number of reasons; what waits in the foreground goes before or behind all others.
When no task is ready, time moves on to the next timer. Timers that are due at the same instant go
off in the order in which they were set.

Instants are milliseconds.
-/

namespace Cohort.Simulation

structure Timer (τ : Type) where
  due : Nat
  task : τ
  deriving DecidableEq, Repr

/-- The tasks of a simulation that are ready, and those that wait for an instant. -/
structure Agenda (τ : Type) where
  now : Nat := 0
  ready : List τ := []
  timers : List (Timer τ) := []
  deriving Repr

namespace Agenda

variable {τ : Type} [DecidableEq τ]

/-- Makes a task ready, behind those that are. -/
def wake (a : Agenda τ) (task : τ) : Agenda τ :=
  if task ∈ a.ready then a else { a with ready := a.ready ++ [task] }

def wakeAll (a : Agenda τ) (tasks : List τ) : Agenda τ := tasks.foldl wake a

def insert (timer : Timer τ) : List (Timer τ) → List (Timer τ)
  | [] => [timer]
  | other :: rest =>
    if other.due ≤ timer.due then other :: insert timer rest else timer :: other :: rest

def wakeAt (a : Agenda τ) (due : Nat) (task : τ) : Agenda τ :=
  if ⟨due, task⟩ ∈ a.timers then a else { a with timers := insert ⟨due, task⟩ a.timers }

def disarm (a : Agenda τ) (task : τ) : Agenda τ :=
  { a with timers := a.timers.filter (·.task ≠ task) }

def withdraw (a : Agenda τ) (task : τ) : Agenda τ := { a with ready := a.ready.erase task }

/-- Takes one of the tasks that are ready, if it can one that is preferred. -/
def take? (a : Agenda τ) (preferred : τ → Bool) : Option (τ × Agenda τ) :=
  match (a.ready.find? preferred).or a.ready.head? with
  | some task => some (task, a.withdraw task)
  | none => none

/-- All timers that are due go off. -/
def goOff (a : Agenda τ) (due : Nat) : Agenda τ :=
  ({ a with
     now := max a.now due
     timers := a.timers.dropWhile (·.due ≤ due) } : Agenda τ).wakeAll
    ((a.timers.takeWhile (·.due ≤ due)).map (·.task))

/-- Takes the next task that runs by `until_`. All timers of an instant have gone off before the
first task of it runs. A task in the foreground is the first of an instant, but waits for all others
when it is woken in the course of it. -/
def next? (a : Agenda τ) (foreground : τ → Bool) (until_ : Nat) : Option (τ × Agenda τ) :=
  let a := a.goOff a.now
  match a.take? (!foreground ·), a.timers with
  | some found, _ => some found
  | none, [] => none
  | none, timer :: _ =>
    if timer.due > until_ then none else (a.goOff timer.due).take? foreground

/-- The instant of the last timer. -/
def horizon (a : Agenda τ) : Nat := a.timers.foldl (fun latest t => max latest t.due) a.now

end Agenda

end Cohort.Simulation
