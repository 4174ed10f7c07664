import Cohort.Membership.Manager
import Cohort.Message.Codec

/-!
How a member's own messages go out: by datagram, or on the direct channel.
-/

namespace Cohort.Manager

def ofTransport : Except TransportFault Unit → Except ServiceError Unit
  | .ok _ => .ok ()
  | .error fault => .error (.ofTransport fault)

/-- Encodes a message; only messages that could be encoded count. -/
def encode (version : Version) (message : Message) : Act (Except ServiceError (List UInt8)) := do
  match Codec.encode version message with
  | .error fault => return .error (.codec fault)
  | .ok data =>
    modify (·.count .serializations)
    return .ok data

/-- Counts a datagram once it is sent. -/
def sent (size : Nat) (result : Except TransportFault Unit) : Act (Except ServiceError Unit) := do
  if result.isOk then
    modify fun m => { m with statistics := m.statistics.messageSent size }
  return ofTransport result

/-- Sends a payload to a member by datagram, in a schema that it understands. -/
def sendDatagram (target : Member) (payload : Payload) : Act (Except ServiceError Unit) := do
  let m ← get
  let message : Message := ⟨some m.self, some target, payload⟩
  match ← encode (Version.current.common target.version) message with
  | .error e => return .error e
  | .ok data => sent data.length (← .perform (.datagram target.membershipAddress data))

def sendMulticast (version : Version) (payload : Payload) : Act (Except ServiceError Unit) := do
  let m ← get
  match ← encode version ⟨some m.self, none, payload⟩ with
  | .error e => return .error e
  | .ok data => sent data.length (← .perform (.multicast data))

/-- Makes deliveries on the direct channel, all at once, if there is the channel. -/
def deliverAll (deliveries : List Delivery) : Act (List (Except ServiceError Unit)) := do
  let m ← get
  if m.channel.isNone then
    return deliveries.map fun _ => .error (.config .channelDisabled)
  else if deliveries.isEmpty then return []
  else Procedure.perform (.deliver deliveries)

def deliver (recipient : Recipient) (message : Message) : Act (Except ServiceError Unit) := do
  match ← deliverAll [⟨recipient, message⟩] with
  | result :: _ => return result
  | [] => return .ok ()

def sendDirect (target : Member) (payload : Payload) : Act (Except ServiceError Unit) :=
  deliver (.member target) (.of payload)

end Cohort.Manager
