import Cohort.Net.Address
import Cohort.Message.Kind
import Cohort.Wire.Fault

/-!
What can go wrong, by cause, and the words for it.
-/

namespace Cohort

inductive IoFault where
  | connectionRefused
  | brokenPipe
  | addressInUse
  | addressUnavailable
  | invalidArgument
  | messageTooLong
  | networkUnreachable
  /-- A frame longer than a connection carries. -/
  | frameTooLong
  /-- The transport was closed before. -/
  | shutDown
  /-- A cause in the words of whoever found it. -/
  | stated (text : String)
  deriving DecidableEq, Repr

def IoFault.text : IoFault → String
  | .connectionRefused => "Connection refused (os error 111)"
  | .brokenPipe => "Broken pipe (os error 32)"
  | .addressInUse => "Address already in use (os error 98)"
  | .addressUnavailable => "Cannot assign requested address (os error 99)"
  | .invalidArgument => "Invalid argument (os error 22)"
  | .messageTooLong => "Message too long (os error 90)"
  | .networkUnreachable => "Network is unreachable (os error 101)"
  | .frameTooLong => "frame size too big"
  | .shutDown => "transport is shut down"
  | .stated text => text

inductive TransportFault where
  | io (fault : IoFault)
  | payloadTooLarge (size limit : Nat)
  | unreachable (peer : Net.Endpoint)
  | multicastDisabled
  | connectionLost (peer : Net.Endpoint)
  | handshake (peer : Net.Endpoint) (reason : String)
  deriving DecidableEq, Repr

def TransportFault.message : TransportFault → String
  | .io fault => "transport I/O error: " ++ fault.text
  | .payloadTooLarge size limit =>
    s!"payload of {size} bytes exceeds the datagram limit of {limit} bytes"
  | .unreachable peer => s!"destination {peer} is unreachable"
  | .multicastDisabled => "multicast is not enabled on this transport"
  | .connectionLost peer => s!"connection to {peer} was lost"
  | .handshake peer reason => s!"session handshake with {peer} failed: {reason}"

inductive CodecFault where
  | empty
  | underflow (needed available : Nat)
  | unknownKind (number : UInt16)
  | unknownSchema (ordinal : UInt16)
  | newerSchema (message connection : Version)
  | body (fault : Wire.Fault)
  | fieldTooLong (size : Nat)
  | noApplicationType
  | applicationTypeTooLarge (type : UInt16)
  /-- Applications may not send messages of the protocol's kinds. -/
  | reserved (kind : MessageKind)
  | stated (text : String)
  deriving DecidableEq, Repr

def CodecFault.text : CodecFault → String
  | .empty => "empty message"
  | .underflow needed available => s!"buffer underflow: need {needed} bytes, have {available}"
  | .unknownKind number => s!"unknown DSFID {number}"
  | .unknownSchema ordinal => (MemberFault.unknownVersion ordinal).message
  | .newerSchema message connection =>
    "message schema " ++ message.text ++ " is newer than the connection's " ++ connection.text
  | .body fault => fault.message
  | .fieldTooLong size => s!"field of {size} bytes is too large"
  | .noApplicationType => "application payloads need an application kind"
  | .applicationTypeTooLarge type =>
    "application kind " ++ toString type ++ " exceeds " ++ toString MessageKind.lastApplication
  | .reserved kind => kind.text ++ " is reserved for the membership protocol"
  | .stated text => text

inductive ConfigFault where
  | zero (setting : String)
  | noSuspicions
  | lossThreshold
  | noMulticastGroup
  | notMulticast (group : Net.Endpoint)
  | locatorsWithoutChannel
  | datagramSize
  | unknownKind (code : UInt8)
  | emptySecret
  | channelDisabled
  | stated (text : String)
  deriving DecidableEq, Repr

def ConfigFault.text : ConfigFault → String
  | .zero setting => s!"{setting} must be greater than zero"
  | .noSuspicions => "suspect threshold must be greater than zero"
  | .lossThreshold => "loss threshold must be between 1 and 100 percent"
  | .noMulticastGroup => "multicast is enabled but no multicast address is set"
  | .notMulticast group => s!"{group} is not a multicast address"
  | .locatorsWithoutChannel => "locators require the direct channel, but TCP is disabled"
  | .datagramSize => "max datagram size must be between 1 and 65535 bytes"
  | .unknownKind code => s!"unknown vm kind {code}"
  | .emptySecret => "encryption is enabled with an empty pre-shared secret"
  | .channelDisabled => "the direct channel is disabled"
  | .stated text => text

inductive ServiceError where
  | transport (fault : TransportFault)
  | handshake (text : String)
  | closed
  | invalidMember (fault : MemberFault)
  | memberRemoved (member : String)
  | codec (fault : CodecFault)
  | config (fault : ConfigFault)
  /-- A failure outside the service, the outermost account of it first. -/
  | other (chain : List String)
  deriving DecidableEq, Repr

namespace ServiceError

/-- A failed handshake of a session is a failure of its own; the rest stays with the transport. -/
def ofTransport : TransportFault → ServiceError
  | .handshake peer reason => .handshake (peer.render ++ ": " ++ reason)
  | fault => .transport fault

def message : ServiceError → String
  | .transport fault => fault.message
  | .handshake text => s!"handshake failed: {text}"
  | .closed => "membership service is closed"
  | .invalidMember fault => fault.message
  | .memberRemoved member => s!"member {member} has been removed from the view"
  | .codec fault => "codec error: " ++ fault.text
  | .config fault => "invalid configuration: " ++ fault.text
  | .other chain => ": ".intercalate chain

/-- The account of an error and of what caused it. -/
def chain : ServiceError → List String
  | .transport (.io fault) => [(TransportFault.io fault).message, fault.text]
  | .other chain => chain
  | e => [e.message]

def within (context : String) (e : ServiceError) : ServiceError := .other (context :: e.chain)

def retryable : ServiceError → Bool
  | .transport _ | .handshake _ => true
  | _ => false

end ServiceError

end Cohort
