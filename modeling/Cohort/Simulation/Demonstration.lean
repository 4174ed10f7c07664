import Cohort.Node.Ping
import Cohort.Simulation.Calls
import Cohort.Simulation.Starting

/-!
The demonstration program as a node runs it: a ping to the group in every period, until somebody
interrupts the program. Then the member leaves, and the program ends.
-/

namespace Cohort.Simulation

open Net (Endpoint Ip)

def modifyDemo (node : Nat) (f : Demo → Demo) : Sim Unit :=
  modifyNode node fun n => { n with demo := n.demo.map f }

def startDemo (node number : Nat) (arguments : Node.Arguments) : Sim Unit := do
  match arguments.config.validate (← get).hostName with
  | .error fault =>
    let e := (ServiceError.config fault).within "invalid membership configuration"
    record number (.error e)
  | .ok c =>
    modifyNode node fun n => { n with demo := some { call := number } }
    startMember node number c (.weighted c.lossThreshold) (planOf c)

def pingWork (counter : Nat) : Work :=
  quiet do
    let ping : Node.Ping := ⟨(← get).self.name, counter.toUInt64⟩
    let _ ← Manager.broadcast ping.message

/-- The program goes on for at most `count` turns. A ping that is late goes out at once, and does not
shift those after it. -/
def runDemo (node : Nat) : Nat → Sim Unit
  | 0 => return
  | count + 1 => do
    let some n ← node? node | return
    let some d := n.demo | return
    if d.stopped || !n.joined then return
    match d.thread with
    | some thread =>
      if (← proceed thread).isSome then
        modifyDemo node fun d => { d with thread := none, stopped := d.leaving }
        if d.leaving then
          record d.call (.ok ())
          reap node
        else runDemo node count
    | none =>
      if d.nextPing ≤ (← clock) then
        let thread ← addThread node .demo (pingWork (d.counter + 1))
        modifyDemo node fun d => { d with
          counter := d.counter + 1
          nextPing := d.nextPing + Node.Ping.period.millis
          thread := some thread }
        runDemo node count
      else if d.interrupted then
        let thread ← addThread node .demo (.ofMember Manager.leave)
        modifyDemo node fun d => { d with leaving := true, thread := some thread }
        runDemo node count
      else wakeAt d.nextPing (.demo node)

/-- Interrupts the programs on a host. A program that is in the middle of a ping does not notice. -/
def interrupt (host : Ip) : Sim Unit := do
  for (n, index) in (← get).nodes.toList.zipIdx do
    if n.host == host && n.joined then
      modifyDemo index fun d =>
        if d.thread.isNone && !d.stopped then { d with interrupted := true } else d
      wake (.demo index)

end Cohort.Simulation
