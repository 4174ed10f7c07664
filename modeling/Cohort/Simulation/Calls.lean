import Cohort.Simulation.Threads

/-!
What is asked of nodes: of members, and of bare messengers and transports.
-/

namespace Cohort.Simulation

open Net (Endpoint)

def Work.ofMember (p : Act Outcome) : Work := .member (.ready p)

/-- Work of a node that is no member. -/
def Work.ofBare (p : Procedure Unit Outcome) : Work := .plain (.ready p)

/-- Sends a datagram. -/
def transmission (target : Destination) (data : List UInt8) : Procedure Unit Outcome := do
  let result : Except TransportFault Unit ← match target with
    | .endpoint e => Procedure.perform (.datagram e data)
    | .multicast => Procedure.perform (.multicast data)
  return result.mapError .transport

/-- Sends a message on the direct channel. -/
def delivery (target : Recipient) (message : Message) : Procedure Unit Outcome := do
  let results : List Outcome ← Procedure.perform (.deliver [⟨target, message⟩])
  return results.headD (.ok ())

def channelClosing : Procedure Unit Outcome := do
  Procedure.perform .closeChannel
  return .ok ()

end Cohort.Simulation
