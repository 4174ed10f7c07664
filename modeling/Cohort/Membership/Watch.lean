import Cohort.Membership.Change

/-!
What a member does for its failure detector. The detector's actor waits for the removals that it
brings about; all other actions are errands, so that the detector never waits for the network.
-/

namespace Cohort.Manager

/-- Asks a member for a sign of life. An errand that fails shows as a missed heartbeat. -/
def heartbeat (target : Member) (request : UInt64) : Act Unit := do
  let result ← sendDatagram target (.heartbeatRequest request target)
  if result.isOk then modify (·.count .heartbeatRequestsSent)

def oldestVersion (view : View) : Version :=
  match view.members with
  | [] => .current
  | m :: rest => rest.foldl (fun v m => v.common m.version) m.version

def tellEach (payload : Payload) : List Member → Act Unit
  | [] => return
  | m :: rest => do
    let result ← sendDatagram m payload
    if result.isOk then modify (·.count .suspectsSent)
    tellEach payload rest

/-- Announces a suspicion: in one datagram to the multicast group where datagrams are plain, else in
one to each other member. -/
def announce (view : View) (suspect : Member) (reason : String) : Act Unit := do
  let m ← get
  let payload := Payload.suspect [⟨suspect, reason⟩]
  if m.config.multicastEnabled && !m.config.encrypted then
    let result ← sendMulticast (oldestVersion view) payload
    if result.isOk then modify (·.count .suspectsSent)
  else tellEach payload (view.members.filter (!·.same m.self))

/-- Checks a member for the last time; a check that cannot be sent has failed. -/
def finalCheck (target : Member) (request : UInt64) : Act Unit := do
  let result ← sendDirect target (.finalCheckRequest request target)
  modify fun m =>
    if result.isOk then m.count .finalCheckRequestsSent
    else m.feed (.finalCheckFailed target request)

def run : Errand → Act Unit
  | .heartbeat target request => heartbeat target request
  | .suspicion view suspect reason => announce view suspect reason
  | .finalCheck target request => finalCheck target request
  | .removal coordinator member reason => do
    let _ ← sendDirect coordinator (.removeMember member reason)

def execute : Detector.Action → Act Unit
  | .sendHeartbeat target request => modify (·.notice (.errand (.heartbeat target request)))
  | .broadcastSuspect suspect reason => modify fun m =>
    match m.view with
    | some view => m.notice (.errand (.suspicion view suspect reason))
    | none => m
  | .sendFinalCheck target request => modify (·.notice (.errand (.finalCheck target request)))
  | .requestRemoval coordinator member reason =>
    modify (·.notice (.errand (.removal coordinator member reason)))
  | .installView view => changeView (.removal view.crashed)
  | .partitionDetected unreachable lost total => modify fun m =>
    (m.count .partitionsDetected).notice (.event (.partitionDetected unreachable lost total))

def executeEach : List Detector.Action → Act Unit
  | [] => return
  | action :: rest => do
    execute action
    executeEach rest

/-- The detector handles an event, and the member does what it says. -/
def onDetectorEvent (event : Detector.Event) : Act Unit := do
  let m ← get
  match m.detector with
  | none => return
  | some d =>
    let (d, actions) := (m.clocked d).handle event
    set { m with detector := some d }
    executeEach actions

end Cohort.Manager
