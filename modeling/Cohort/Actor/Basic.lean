/-!
Actors. An actor owns a queue of commands and handles one at a time, in the order they were sent. A
recurrent actor also handles a tick in every period. A request to stop goes before everything that
waits.

Instants are milliseconds of one clock.
-/

namespace Cohort

structure Ticker where
  period : Nat
  /-- When the next tick is due. -/
  due : Nat
  deriving DecidableEq, Repr

namespace Ticker

/-- By how much a tick may be late and still count as on time. -/
def tolerance : Nat := 5

/-- After a tick at `now` the next is due a period after this one was, or if this one was late, a
period from now: missed ticks are not made up for. -/
def next (t : Ticker) (now : Nat) : Ticker :=
  if now > t.due + tolerance then { t with due := now + t.period }
  else { t with due := t.due + t.period }

end Ticker

inductive ActorPhase where
  | idle
  /-- Its handler runs. -/
  | busy
  | stopped
  deriving DecidableEq, Repr

structure Actor (α : Type) where
  inbox : List α := []
  /-- Whether anybody can still send commands. -/
  reachable : Bool := true
  stopRequested : Bool := false
  ticker : Option Ticker := none
  phase : ActorPhase := .idle
  deriving DecidableEq, Repr

namespace Actor

variable {α : Type}

inductive Turn (α : Type) where
  | command (command : α)
  | tick
  deriving DecidableEq, Repr

/-- Queues a command; an actor that has stopped takes none. -/
def send (a : Actor α) (command : α) : Actor α × Bool :=
  if a.phase = .stopped then (a, false)
  else ({ a with inbox := a.inbox ++ [command] }, true)

def requestStop (a : Actor α) : Actor α := { a with stopRequested := true }

def abandon (a : Actor α) : Actor α := { a with reachable := false }

def stopped (a : Actor α) : Actor α := { a with phase := .stopped, inbox := [] }

/-- Handles a tick if one is due. -/
def tickTurn (a : Actor α) (now : Nat) : Actor α × Option (Turn α) :=
  match a.ticker with
  | some t =>
    if t.due ≤ now then ({ a with ticker := some (t.next now), phase := .busy }, some .tick)
    else (a, none)
  | none => (a, none)

/-- What an idle actor does at `now`: it stops if asked to, handles the first command, or a tick
that is due. Without commands and without anybody to send them only a recurrent actor goes on. -/
def turn (a : Actor α) (now : Nat) : Actor α × Option (Turn α) :=
  if a.phase ≠ .idle then (a, none)
  else if a.stopRequested then (a.stopped, none)
  else match a.inbox with
    | command :: rest => ({ a with inbox := rest, phase := .busy }, some (.command command))
    | [] =>
      if !a.reachable && a.ticker.isNone then (a.stopped, none)
      else a.tickTurn now

def finish (a : Actor α) : Actor α := if a.phase = .busy then { a with phase := .idle } else a

def nextTick? (a : Actor α) : Option Nat :=
  if a.phase = .idle then a.ticker.map (·.due) else none

end Actor

end Cohort
