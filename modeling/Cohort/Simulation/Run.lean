import Cohort.Simulation.Demonstration
import Cohort.Simulation.Peers
import Cohort.Simulation.Starting
import Cohort.Simulation.Writers

/-!
How a world goes on: task after task until nothing more is to be done at this instant, and from
timer to timer.
-/

namespace Cohort.Simulation

/-- Calls in the foreground go on, one of which was woken: they are one task, in which each call in
turn looks whether it is ready. -/
def runForeground (woken : Nat) : List Nat → Sim Unit
  | [] => return
  | index :: rest => do
    let w ← get
    let task := Task.foreground index
    if index = woken ∨ task ∈ w.agenda.ready then
      set { w with agenda := w.agenda.withdraw task }
      runThread index
    runForeground woken rest

def runTask : Task → Sim Unit
  | .socket index => runSocket index
  | .pump node => runPump node
  | .session node number => runSession node number
  | .reader node => runReader node pieces
  | .actor node name => runActor node name
  | .acceptor node => runAcceptor node pieces
  | .inbound index => runInbound index pieces
  | .writer index => runWriter index
  | .thread index => runThread index
  | .foreground index => do runForeground index ((← get).threads.map (·.1))
  | .demo node => runDemo node pieces
  | .peerSocket peer => runPeerSocket peer
  | .peerDeeds peer => runPeerDeeds peer
  | .peerListener peer listener => runPeerListener peer listener
  | .peerStream index => runPeerStream index pieces

/-- Runs what is due by an instant, at most `count` tasks. -/
def runUntil (due : Nat) : Nat → Sim Unit
  | 0 => return
  | count + 1 => do
    let w ← get
    match w.agenda.next? Task.isForeground due with
    | none => return
    | some (task, agenda) =>
      set { w with agenda := agenda }
      runTask task
      runUntil due count

/-- More tasks than any scenario has between two steps. -/
def tasks : Nat := 100000000

def settleDown : Sim Unit := do runUntil (← clock) tasks

/-- Lets time pass until something holds, for at most `count` tasks. -/
def runUntilHolds (holds : World → Bool) : Nat → Sim Unit
  | 0 => return
  | count + 1 => do
    let w ← get
    if holds w then return
    match w.agenda.next? Task.isForeground w.agenda.horizon with
    | none => return
    | some (task, agenda) =>
      set { w with agenda := agenda }
      runTask task
      runUntilHolds holds count

def awaitCalls (calls : List Nat) : Sim Unit := do
  let finished (w : World) : Bool := calls.all fun call => (w.finished.lookup call).isSome
  runUntilHolds finished tasks
  settleDown

def elapse (ms : Nat) : Sim Unit := do
  let due := (← clock) + ms
  runUntil due tasks
  modify fun w => { w with agenda := { w.agenda with now := due } }

end Cohort.Simulation
