import Cohort.Actor.Basic
import Cohort.Simulation.Agenda
import Cohort.Span
import Cohort.Text.Quoted

/-!
Actors under a name each, on one virtual clock. Whoever starts an actor under a name that is taken
stops the one that had it; an actor is destroyed by asking it to stop and waiting for that, but not
for ever.
-/

namespace Cohort

inductive ActorFault where
  | unknown (name : String)
  | deaf (name : String)
  | noPeriod (name : String)
  | stuck (name : String) (patience : Span)
  | someStuck (count : Nat)
  deriving DecidableEq, Repr

namespace ActorFault

def message : ActorFault → String
  | .unknown name => "actor " ++ Text.quote name ++ " not found"
  | .deaf name => "actor " ++ Text.quote name ++ " is no longer receiving commands"
  | .noPeriod name => "recurrent actor " ++ Text.quote name ++ " needs a non-zero period"
  | .stuck name patience => "actor " ++ Text.quote name ++ " did not stop within " ++ patience.text
  | .someStuck count => toString count ++ " actor(s) failed to shut down cleanly"

end ActorFault

namespace Actor

structure Performer (α : Type) where
  name : String
  actor : Actor α
  /-- How long its handler takes over a turn. -/
  effort : Turn α → Nat
  busyUntil : Nat := 0

/-- One start of a handler. -/
structure Call (α : Type) where
  time : Nat
  name : String
  turn : Turn α

structure Registry (α : Type) where
  agenda : Simulation.Agenda Nat := {}
  performers : Array (Performer α) := #[]
  /-- The performer that has each name. -/
  names : List (String × Nat) := []
  /-- The starts of handlers, the latest first. -/
  calls : List (Call α) := []
  /-- How long to wait for an actor to stop. -/
  patience : Nat := 1000

namespace Registry

variable {α : Type}

def now (r : Registry α) : Nat := r.agenda.now

def wake (r : Registry α) (index : Nat) : Registry α := { r with agenda := r.agenda.wake index }

def modify (r : Registry α) (index : Nat) (f : Actor α → Actor α) : Registry α :=
  { r with performers := r.performers.modify index fun p => { p with actor := f p.actor } }

/-- An actor's turns at the present instant, at most `turns` of them. -/
def perform (index : Nat) : Nat → Registry α → Registry α
  | 0, r => r
  | turns + 1, r =>
    match r.performers[index]? with
    | none => r
    | some p =>
      let (actor, turn) := p.actor.turn r.now
      let put (p : Performer α) : Registry α :=
        { r with performers := r.performers.setIfInBounds index p }
      match turn with
      | none =>
        let r := put { p with actor := actor }
        match actor.nextTick? with
        | some due => { r with agenda := r.agenda.wakeAt due index }
        | none => r
      | some turn =>
        let effort := p.effort turn
        let call : Call α := ⟨r.now, p.name, turn⟩
        if effort = 0 then
          perform index turns { put { p with actor := actor.finish } with calls := call :: r.calls }
        else
          let until_ := r.now + effort
          { put { p with actor := actor, busyUntil := until_ } with
            calls := call :: r.calls
            agenda := r.agenda.wakeAt until_ index }

def poll (r : Registry α) (index : Nat) : Registry α :=
  match r.performers[index]? with
  | none => r
  | some p =>
    let done := p.actor.phase = .busy ∧ p.busyUntil ≤ r.now
    let r := if done then r.modify index Actor.finish else r
    perform index (p.actor.inbox.length + Ticker.tolerance + 2) r

/-- Runs until nothing is left to do by `until_`, at most `steps` tasks. -/
def run (until_ : Nat) : Nat → Registry α → Registry α
  | 0, r => r
  | steps + 1, r =>
    match r.agenda.next? (fun _ => false) until_ with
    | none => r
    | some (index, agenda) => run until_ steps (poll { r with agenda := agenda } index)

/-- More tasks than any run here has. -/
def steps : Nat := 1000000

def settle (r : Registry α) : Registry α := run r.now steps r

def advance (r : Registry α) (ms : Nat) : Registry α :=
  let target := r.now + ms
  let r := run target steps r
  { r with agenda := { r.agenda with now := target } }

def named? (r : Registry α) (name : String) : Option Nat := r.names.lookup name

def has (r : Registry α) (name : String) : Bool := (r.named? name).isSome

def spawn (r : Registry α) (name : String) (effort : Turn α → Nat) (ticker : Option Ticker) :
    Registry α :=
  let index := r.performers.size
  let before := r.named? name
  let r : Registry α := { r with
    performers := r.performers.push ⟨name, { ticker := ticker }, effort, 0⟩
    names := r.names.filter (·.1 != name) ++ [(name, index)] }
  let r := r.wake index
  match before with
  | some old => (r.modify old fun a => a.requestStop.abandon).wake old
  | none => r

/-- Starts a recurrent actor; its first tick is due at once. -/
def spawnRecurrent (r : Registry α) (name : String) (effort : Turn α → Nat) (period : Nat) :
    Except ActorFault (Registry α) :=
  if period = 0 then .error (.noPeriod name)
  else .ok (r.spawn name effort (some ⟨period, r.now⟩))

def send (r : Registry α) (name : String) (command : α) : Except ActorFault (Registry α) :=
  match r.named? name with
  | none => .error (.unknown name)
  | some index =>
    match r.performers[index]? with
    | none => .error (.unknown name)
    | some p =>
      let (actor, taken) := p.actor.send command
      if taken then
        .ok ({ r with performers := r.performers.setIfInBounds index { p with actor := actor } }.wake
          index)
      else .error (.deaf name)

def hasStopped (index : Nat) (r : Registry α) : Bool :=
  match r.performers[index]? with
  | some p => p.actor.phase == .stopped
  | none => true

/-- Waits for an actor to stop, at most `steps` tasks long, and tells whether it has. Whoever waits
goes on behind all tasks of the instant in which the actor stops, but at the deadline before any. -/
def awaitStop (index deadline : Nat) : Nat → Registry α → Registry α × Bool
  | 0, r => (r, false)
  | steps + 1, r =>
    match r.agenda.next? (fun _ => false) r.now with
    | some (task, agenda) => awaitStop index deadline steps (poll { r with agenda := agenda } task)
    | none =>
      if hasStopped index r then (r, true)
      else
        let next := (r.agenda.timers.head?.map (·.due)).getD deadline
        if next < deadline then
          awaitStop index deadline steps { r with agenda := r.agenda.goOff next }
        else ({ r with agenda := r.agenda.goOff deadline }, false)

/-- Destroys an actor; one that nobody knows is as good as destroyed. Without any patience there is
no time for it to stop. -/
def destroy (r : Registry α) (name : String) : Registry α × Option ActorFault :=
  match r.named? name with
  | none => (r, none)
  | some index =>
    let r := { r with names := r.names.filter (·.1 != name) }
    let r := (r.modify index fun a => a.requestStop.abandon).wake index
    let (r, done) :=
      if r.patience = 0 then (r, false) else awaitStop index (r.now + r.patience) steps r
    (r, if done then none else some (.stuck name (.ofMillis r.patience)))

/-- Destroys one actor after the other, and counts those that did not stop. -/
def destroyEach (r : Registry α) : List String → Registry α × Nat
  | [] => (r, 0)
  | name :: rest =>
    let (r, fault) := r.destroy name
    let (r, stuck) := destroyEach r rest
    (r, stuck + (if fault.isSome then 1 else 0))

def destroyAll (r : Registry α) : Registry α × Option ActorFault :=
  let names := (r.names.map (·.1)).mergeSort (· ≤ ·)
  let (r, stuck) := r.destroyEach names
  (r, if stuck = 0 then none else some (.someStuck stuck))

end Registry

end Actor

end Cohort
