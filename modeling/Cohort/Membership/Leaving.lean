import Cohort.Membership.Change
import Cohort.Membership.Joining

/-!
How a member goes: it leaves its group in order, or just closes. Closing happens once; whoever asks
for it while it is under way waits for its end.
-/

namespace Cohort.Manager

/-- Ends an actor: nobody reaches it any more, and it is waited for. -/
def endWatch : Act Unit := do
  modify fun m =>
    { m with watched := false, watch := m.watch.requestStop.abandon }.notice (.actor .watch)
  Procedure.perform (.actorEnd .watch (← get).config.shutdownTimeout)

def endPulse : Act Unit := do
  modify fun m => { m with pulse := m.pulse.requestStop.abandon }.notice (.actor .pulse)
  Procedure.perform (.actorEnd .pulse (← get).config.shutdownTimeout)

def shutdown : Act Unit := do
  modify fun m =>
    ({ m.stopDetector with listening := false, expectsAnswer := false }.notice .deafened).notice
      .joinAnswer
  endWatch
  endPulse
  if (← get).channel.isSome then Procedure.perform .closeChannel
  Procedure.perform .closeTransport

/-- Closes the member: from now on it sends nothing for the application. -/
def close : Act Unit := do
  modify fun m => { m with phase := .closed }
  match (← get).closing with
  | .finished => return
  | .underway => Procedure.perform .closed
  | .never =>
    modify fun m => { m with closing := .underway }
    shutdown
    modify fun m => { m with closing := .finished }.notice .closed

/-- Tells the group: a coordinator hands over, another member asks to be let go. -/
def farewell (view : View) : Act Unit := do
  let m ← get
  match view.coordinator with
  | none => return
  | some coordinator =>
    if coordinator.same m.self then changeView .handover
    else
      let _ ← sendDirect coordinator (.leaveRequest m.self "graceful shutdown")

def leave : Act (Except ServiceError Unit) := do
  match activeView (← get) with
  | some view => if view.size > 1 then farewell view
  | none => pure ()
  close
  return .ok ()

/-- Starts the member's life in a group; one that finds none is closed. -/
def start : Act (Except ServiceError Unit) := do
  match ← enterGroup with
  | .ok _ => return .ok ()
  | .error e =>
    close
    return .error e

end Cohort.Manager
