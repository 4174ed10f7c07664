import Cohort.Error
import Cohort.View.Basic

/-!
Messages of the membership protocol and of the applications that use it.
-/

namespace Cohort

structure Suspicion where
  suspect : Member
  reason : String
  deriving DecidableEq, Repr

inductive JoinAnswer where
  /-- The joiner is in; the view has it. -/
  | accepted (view : View)
  /-- Somebody else coordinates the group. -/
  | redirect (coordinator : Member)
  | rejected (reason : String)
  deriving DecidableEq, Repr

inductive Payload where
  /-- Opens every connection of the direct channel. -/
  | handshake (identity : Member)
  | heartbeatRequest (request : UInt64) (target : Member)
  | heartbeatResponse (request : UInt64)
  | suspect (suspects : List Suspicion)
  | finalCheckRequest (request : UInt64) (target : Member)
  | finalCheckResponse (request : UInt64)
  | joinRequest (member : Member)
  | joinResponse (answer : JoinAnswer)
  | leaveRequest (member : Member) (reason : String)
  | removeMember (member : Member) (reason : String)
  | installView (view : View)
  | application (type : UInt16) (data : List UInt8)
  deriving DecidableEq, Repr

namespace Payload

def kind : Payload → MessageKind
  | .handshake _ => .handshake
  | .heartbeatRequest .. => .heartbeatRequest
  | .heartbeatResponse _ => .heartbeatResponse
  | .suspect _ => .suspect
  | .finalCheckRequest .. => .finalCheckRequest
  | .finalCheckResponse _ => .finalCheckResponse
  | .joinRequest _ => .joinRequest
  | .joinResponse _ => .joinResponse
  | .leaveRequest .. => .leaveRequest
  | .removeMember .. => .removeMember
  | .installView _ => .installView
  | .application type _ => .application type

/-- The payload as a peer of schema `version` knows it. -/
def forVersion (version : Version) : Payload → Payload
  | .handshake identity => .handshake (identity.forVersion version)
  | .heartbeatRequest request target => .heartbeatRequest request (target.forVersion version)
  | .suspect suspects =>
    .suspect (suspects.map fun s => { s with suspect := s.suspect.forVersion version })
  | .finalCheckRequest request target => .finalCheckRequest request (target.forVersion version)
  | .joinRequest member => .joinRequest (member.forVersion version)
  | .joinResponse (.accepted view) => .joinResponse (.accepted (view.forVersion version))
  | .joinResponse (.redirect member) => .joinResponse (.redirect (member.forVersion version))
  | .leaveRequest member reason => .leaveRequest (member.forVersion version) reason
  | .removeMember member reason => .removeMember (member.forVersion version) reason
  | .installView view => .installView (view.forVersion version)
  | payload => payload

end Payload

/-- A payload with the sender that the receiving side could verify, and an explicit recipient if
there is one. -/
structure Message where
  sender : Option Member := none
  recipient : Option Member := none
  payload : Payload
  deriving DecidableEq, Repr

namespace Message

def kind (message : Message) : MessageKind := message.payload.kind

def of (payload : Payload) : Message := { payload := payload }

/-- An application message; it needs a type, and one that has a number on the wire. -/
def application (type : Option UInt16) (data : List UInt8) : Except CodecFault Message :=
  match type with
  | none => .error .noApplicationType
  | some type =>
    if type > MessageKind.lastApplication then .error (.applicationTypeTooLarge type)
    else .ok (.of (.application type data))

def data? (message : Message) : Option (List UInt8) :=
  match message.payload with
  | .application _ data => some data
  | _ => none

def forVersion (version : Version) (message : Message) : Message where
  sender := message.sender.map (·.forVersion version)
  recipient := message.recipient.map (·.forVersion version)
  payload := message.payload.forVersion version

end Message

end Cohort
