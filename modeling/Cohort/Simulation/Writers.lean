import Cohort.Simulation.Threads

/-!
How connections that nodes open go on with what is queued on them. A scripted connection keeps every
message; the messages to a member that is cut off are lost, and so is the connection. Whoever wants to
write to that address again at the same instant has only the network.
-/

namespace Cohort.Simulation

open Net (Endpoint)

/-! ### Scripted connections -/

def peerAt (w : World) (address : Endpoint) : Option Peer :=
  w.peers.toList.find? (·.member.directAddress? == some address)

/-- A scripted connection is no more. -/
def spend (address : Endpoint) : Sim Unit :=
  modify fun w => { w with spent := w.spent ++ [(w.now, address)] }

/-- A peer finds a message. A final check it may confirm at once, with a message to the node. -/
def showPeer (node : Nat) (p : Peer) (message : Message) : Sim Unit := do
  if let .finalCheckRequest request _ := message.payload then
    if p.confirms then
      let answer : Message := ⟨some p.member, none, .finalCheckResponse request⟩
      wake (.thread (← addThread node .errand (reaction (Manager.onDirect answer))))

/-- A scripted connection takes the first message, or loses it. -/
def writeScripted (number : Nat) (w : NodeWriter) (message : Message) : Sim Unit := do
  let peer := peerAt (← get) w.writer.address
  let lost := (peer.map (·.cut)).getD false
  modify fun world => { world with
    written := world.written ++ [⟨w.writer.address, some (message, lost)⟩] }
  modifyWriter number fun w => { w with used := true }
  if lost then
    spend w.writer.address
    settleFirst number w.writer.settle (.error w.writer.lost)
  else
    settleFirst number w.writer.settle (.ok ())
    if let some p := peer then showPeer w.node p message

def finishScripted (number : Nat) (w : NodeWriter) (ticket : Ticket) : Sim Unit := do
  if w.used then
    modify fun world => { world with written := world.written ++ [⟨w.writer.address, none⟩] }
  spend w.writer.address
  finishWriter number w ticket

/-- One step of a scripted connection. Says whether there was something to do. -/
def scriptedStep (number : Nat) (w : NodeWriter) : Sim Bool := do
  match w.writer.stage, w.writer.queue with
  | .closed, _ | _, [] => return false
  | _, .close ticket :: _ => finishScripted number w ticket
  | _, .message m _ :: _ => writeScripted number w m
  return true

/-! ### All connections -/

/-- A connection goes on with its queue, in at most `count` steps. -/
def driveWriter (number : Nat) : Nat → Sim Unit
  | 0 => return
  | count + 1 => do
    let some w := (← get).writers[number]? | return
    let step := if w.scripted then scriptedStep else writerStep
    if ← step number w then driveWriter number count

def runWriter (number : Nat) : Sim Unit := do
  let some w := (← get).writers[number]? | return
  driveWriter number (3 * w.writer.queue.length + 3)

end Cohort.Simulation
