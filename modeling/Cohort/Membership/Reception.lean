import Cohort.Membership.Change

/-!
What a member does with what it receives. Datagrams carry heartbeats and suspicions and speak only
for the address they come from; what arrives on the direct channel speaks for the member that opened
the connection. Whatever is refused changes no more than counters.
-/

namespace Cohort

/-- Why a member does not act on something that it received, or could not answer it. -/
inductive Refusal where
  | undecodable (fault : CodecFault)
  /-- Only heartbeats and suspicions are for datagrams. -/
  | notForDatagrams (kind : MessageKind)
  /-- A datagram speaks for somebody else than the address it came from. -/
  | foreignSender (claimed : Option Member)
  /-- A message on the direct channel speaks for nobody. -/
  | noSender
  | unanswered (e : ServiceError)
  deriving DecidableEq, Repr

def Refusal.error : Refusal → ServiceError
  | .undecodable fault => (ServiceError.codec fault).within "undecodable datagram"
  | .notForDatagrams kind => .other [kind.text ++ " is not carried by datagrams"]
  | .foreignSender claimed =>
    let sender := (claimed.map (·.text)).getD "<none>"
    .other ["claimed sender " ++ sender ++ " does not match the source address"]
  | .noSender => .other ["direct message without a sender"]
  | .unanswered e => .other e.chain

namespace Manager

/-- What becomes of something that was received. -/
abbrev Reaction := Act (Except Refusal Unit)

def answered (counter : Counter) : Except ServiceError Unit → Reaction
  | .ok _ => do
    modify (·.count counter)
    return .ok ()
  | .error e => return .error (.unanswered e)

def react (f : Manager → Manager) : Reaction := do
  modify f
  return .ok ()

/-! ### Datagrams -/

def onDatagramPayload (sender : Member) : Payload → Reaction
  | .heartbeatRequest request target => do
    modify (·.count .heartbeatRequestsReceived)
    if target.same (← get).self then
      answered .heartbeatResponsesSent (← sendDatagram sender (.heartbeatResponse request))
    else return .ok ()
  | .heartbeatResponse request =>
    react fun m => (m.count .heartbeatResponsesReceived).feed (.heartbeatResponse sender request)
  | .suspect suspects =>
    react fun m => (m.count .suspectsReceived).feed (.suspectReceived sender suspects)
  | payload => return .error (.notForDatagrams payload.kind)

/-- The sender of a datagram: it must be of a kind for datagrams, and come from the sender's own
address. -/
def datagramSender (source : Net.Endpoint) (message : Message) : Except Refusal Member :=
  if !message.kind.isDatagram then .error (.notForDatagrams message.kind)
  else match message.sender with
    | some sender =>
      if sender.membershipAddress = source then .ok sender
      else .error (.foreignSender (some sender))
    | none => .error (.foreignSender none)

/-- Takes a datagram in. What a member says to itself, as through a multicast group, is nothing
new. -/
def onDatagram (source : Net.Endpoint) (data : List UInt8) : Reaction := do
  modify (·.count .deserializations)
  match Codec.decode .current data with
  | .error fault => return .error (.undecodable fault)
  | .ok message =>
    modify fun m => { m with statistics := m.statistics.messageReceived data.length }
    match datagramSender source message with
    | .error refusal => return .error refusal
    | .ok sender =>
      if sender.same (← get).self then return .ok ()
      else onDatagramPayload sender message.payload

/-! ### The direct channel -/

/-- Answers a final check that is meant for this incarnation. -/
def onFinalCheck (sender target : Member) (request : UInt64) : Reaction := do
  modify (·.count .finalCheckRequestsReceived)
  if target.same (← get).self then
    answered .finalCheckResponsesSent (← sendDirect sender (.finalCheckResponse request))
  else return .ok ()

def onJoinRequest (joiner : Member) : Reaction := do
  let answer ← joinAnswerFor joiner
  match ← sendDirect joiner (.joinResponse answer) with
  | .ok _ => return .ok ()
  | .error e => return .error (.unanswered e)

/-- Takes the answer to a request to join, if one is expected. -/
def takeJoinAnswer (m : Manager) (answer : JoinAnswer) : Manager :=
  if m.expectsAnswer then { m with answers := m.answers ++ [answer] }.notice .joinAnswer else m

/-- Takes a view from the member that created it. -/
def takeView (m : Manager) (sender : Member) (view : View) : Manager :=
  if !sender.same view.creator || m.phase == .closed then m else m.adopt view

/-- The view's description of a member that is to be removed. -/
def describe (m : Manager) (member : Member) : Member :=
  ((m.view.bind (·.get? member))).getD member

def onDirectPayload (sender : Member) : Payload → Reaction
  | .finalCheckRequest request target => onFinalCheck sender target request
  | .finalCheckResponse request =>
    react fun m => (m.count .finalCheckResponsesReceived).feed (.finalCheckResponse sender request)
  | .joinRequest _ => onJoinRequest sender
  | .joinResponse answer => react (·.takeJoinAnswer answer)
  | .leaveRequest _ _ => do
    changeView (.departure sender)
    return .ok ()
  | .removeMember member reason =>
    react fun m => m.feed (.removeRequested sender (m.describe member) reason)
  | .installView view => react (·.takeView sender view)
  | _ => return .ok ()

def onDirect (message : Message) : Reaction :=
  match message.sender with
  | some sender => onDirectPayload sender message.payload
  | none => return .error .noSender

def isProtocolKind : MessageKind → Bool
  | .finalCheckRequest | .finalCheckResponse | .joinRequest | .joinResponse | .leaveRequest
  | .removeMember | .installView => true
  | _ => false

end Manager

end Cohort
