import Cohort.Node.Journal
import Cohort.Simulation.Run

/-!
The demonstration program on the command line. Its node lives on the only host of a world whose clock
goes with the machine's. It runs until there is a line on the standard input, or the end of it; then
it leaves its group.
-/

namespace Cohort.Terminal

open Simulation

/-- The number of the node, and of the call that is over when the program ends. -/
def self : Nat := 0

def opening (arguments : Node.Arguments) : World :=
  let start : Sim Unit := do
    let node ← addNode { host := arguments.ip }
    startDemo node self arguments
    settleDown
  (start.run {}).2

def readEvents : Sim (List String) := do
  let some n ← node? self | return []
  let some events := n.events | return []
  modifyNode self fun n => { n with events := some {} }
  let lines := events.items.map Node.Journal.event
  return if events.missed = 0 then lines else Node.Journal.missed events.missed :: lines

def greet : Sim (List String) := do
  let some n ← node? self | return []
  let some m := n.manager | return []
  return if n.joined then Node.Journal.joined m.self m.view else []

/-- Time goes by; gives the lines for what happened in it. -/
def pass (ms : Nat) (interrupted : Bool) : Sim (List String) := do
  if interrupted then
    if let some n ← node? self then interrupt n.host
  elapse ms
  readEvents

/-- How often the world catches up with the machine, in milliseconds. -/
def period : Nat := 100

/-- Goes on until the program is over; gives its exit code. -/
partial def follow (input : Task (Except IO.Error String)) (since : Nat) (w : World) : IO UInt32 := do
  match w.finished.lookup self with
  | some (.ok ()) =>
    IO.println Node.Journal.farewell
    return 0
  | some (.error e) =>
    IO.eprintln e.message
    return 1
  | none =>
    IO.sleep period.toUInt32
    let now ← IO.monoMsNow
    let (lines, w) := (pass (now - since) (← IO.hasFinished input)).run w
    for line in lines do IO.println line
    follow input now w

end Cohort.Terminal

def main (words : List String) : IO UInt32 := do
  match Cohort.Node.Arguments.read words with
  | .error fault =>
    if fault.isRequest then
      IO.println fault.text
      return 0
    else
      IO.eprintln fault.text
      IO.eprintln Cohort.Node.usage
      return 2
  | .ok arguments =>
    let w := Cohort.Terminal.opening arguments
    for line in (Cohort.Terminal.greet.run w).1 do IO.println line
    let input ← IO.asTask (do (← IO.getStdin).getLine)
    Cohort.Terminal.follow input (← IO.monoMsNow) w
