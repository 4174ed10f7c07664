/-!
Message kinds. Each has a fixed number on the wire; the numbers of application messages begin at
1024 and leave the rest to the protocol.
-/

namespace Cohort

inductive MessageKind where
  | handshake
  | heartbeatRequest
  | heartbeatResponse
  | suspect
  | finalCheckRequest
  | finalCheckResponse
  | joinRequest
  | joinResponse
  | leaveRequest
  | removeMember
  | installView
  /-- An application message of the application's own type. -/
  | application (type : UInt16)
  deriving DecidableEq, Repr

namespace MessageKind

def applicationBase : UInt16 := 1024

/-- The last application type that has a number on the wire. -/
def lastApplication : UInt16 := 0xFFFF - applicationBase

/-- The number on the wire; a type beyond the last has the highest. -/
def number : MessageKind → UInt16
  | .handshake => 1
  | .heartbeatRequest => 2
  | .heartbeatResponse => 3
  | .suspect => 4
  | .finalCheckRequest => 5
  | .finalCheckResponse => 6
  | .joinRequest => 7
  | .joinResponse => 8
  | .leaveRequest => 9
  | .removeMember => 10
  | .installView => 11
  | .application type => if type > lastApplication then 0xFFFF else applicationBase + type

def ofNumber? (n : UInt16) : Option MessageKind :=
  match n with
  | 1 => some .handshake
  | 2 => some .heartbeatRequest
  | 3 => some .heartbeatResponse
  | 4 => some .suspect
  | 5 => some .finalCheckRequest
  | 6 => some .finalCheckResponse
  | 7 => some .joinRequest
  | 8 => some .joinResponse
  | 9 => some .leaveRequest
  | 10 => some .removeMember
  | 11 => some .installView
  | n => if n ≥ applicationBase then some (.application (n - applicationBase)) else none

def isApplication : MessageKind → Bool
  | .application _ => true
  | _ => false

/-- The kinds that travel in datagrams; all others need the direct channel. -/
def isDatagram : MessageKind → Bool
  | .heartbeatRequest | .heartbeatResponse | .suspect => true
  | _ => false

def text : MessageKind → String
  | .handshake => "HANDSHAKE"
  | .heartbeatRequest => "HEARTBEAT_REQUEST"
  | .heartbeatResponse => "HEARTBEAT_RESPONSE"
  | .suspect => "SUSPECT"
  | .finalCheckRequest => "FINAL_CHECK_REQUEST"
  | .finalCheckResponse => "FINAL_CHECK_RESPONSE"
  | .joinRequest => "JOIN_REQUEST"
  | .joinResponse => "JOIN_RESPONSE"
  | .leaveRequest => "LEAVE_REQUEST"
  | .removeMember => "REMOVE_MEMBER"
  | .installView => "INSTALL_VIEW"
  | .application type => s!"APPLICATION({type})"

end MessageKind

end Cohort
