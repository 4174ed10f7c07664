import Cohort.Message.Basic
import Cohort.Wire.Reader
import Cohort.Wire.Writer

/-!
Messages as bytes: the number of the kind and the ordinal of the schema, then sender, recipient and
payload, each behind its length. The members inside are written as the schema knows them, and bytes
after the payload are ignored.
-/

namespace Cohort.Codec

open Wire

def writeSuspicion (s : Suspicion) : List UInt8 := member s.suspect ++ text s.reason

def writeAnswer : JoinAnswer → List UInt8
  | .accepted v => word32 0 ++ view v
  | .redirect m => word32 1 ++ member m
  | .rejected reason => word32 2 ++ text reason

def writePayload : Payload → List UInt8
  | .handshake m => member m
  | .heartbeatRequest request target => word64 request ++ member target
  | .heartbeatResponse request => word64 request
  | .suspect suspects => list writeSuspicion suspects
  | .finalCheckRequest request target => word64 request ++ member target
  | .finalCheckResponse request => word64 request
  | .joinRequest m => member m
  | .joinResponse answer => writeAnswer answer
  | .leaveRequest m reason => member m ++ text reason
  | .removeMember m reason => member m ++ text reason
  | .installView v => view v
  | .application _ data => bytes data

def readSuspicion : Reader Suspicion := do
  let suspect ← Reader.member
  let reason ← Reader.text
  return ⟨suspect, reason⟩

def readAnswer : Reader JoinAnswer := do
  let tag ← Reader.word32
  if tag = 0 then return .accepted (← Reader.view)
  else if tag = 1 then return .redirect (← Reader.member)
  else if tag = 2 then return .rejected (← Reader.text)
  else Reader.fail (.unknownAnswer tag)

def readPayload : MessageKind → Reader Payload
  | .handshake => return .handshake (← Reader.member)
  | .heartbeatRequest => do
    let request ← Reader.word64
    return .heartbeatRequest request (← Reader.member)
  | .heartbeatResponse => return .heartbeatResponse (← Reader.word64)
  | .suspect => return .suspect (← Reader.list readSuspicion)
  | .finalCheckRequest => do
    let request ← Reader.word64
    return .finalCheckRequest request (← Reader.member)
  | .finalCheckResponse => return .finalCheckResponse (← Reader.word64)
  | .joinRequest => return .joinRequest (← Reader.member)
  | .joinResponse => return .joinResponse (← readAnswer)
  | .leaveRequest => do
    let m ← Reader.member
    return .leaveRequest m (← Reader.text)
  | .removeMember => do
    let m ← Reader.member
    return .removeMember m (← Reader.text)
  | .installView => return .installView (← Reader.view)
  | .application type => return .application type (← Reader.bytes)

/-- A field behind its length of four bytes, if the length has room for it. -/
def writeField (data : List UInt8) : Except CodecFault (List UInt8) :=
  if data.length < UInt32.size then .ok (bigEndian 4 data.length ++ data)
  else .error (.fieldTooLong data.length)

def encode (version : Version) (message : Message) : Except CodecFault (List UInt8) := do
  let message' := message.forVersion version
  let sender ← writeField (option member message'.sender)
  let recipient ← writeField (option member message'.recipient)
  let payload ← writeField (writePayload message'.payload)
  return bigEndian 2 message.kind.number.toNat ++ bigEndian 2 version.ordinal.toNat
    ++ sender ++ recipient ++ payload

/-- The next `count` bytes and the rest. -/
def splitBytes (count : Nat) (input : List UInt8) :
    Except CodecFault (List UInt8 × List UInt8) :=
  if input.length < count then .error (.underflow count input.length)
  else .ok (input.take count, input.drop count)

def readField (input : List UInt8) : Except CodecFault (List UInt8 × List UInt8) := do
  let (size, input) ← splitBytes 4 input
  splitBytes (Reader.ofBigEndian size) input

def parseBody {α : Type} (read : Reader α) (data : List UInt8) : Except CodecFault α :=
  (Reader.parse read data).mapError .body

/-- Decodes for a connection of schema `version`, which understands no newer one. -/
def decode (version : Version) (input : List UInt8) : Except CodecFault Message := do
  if input.isEmpty then throw .empty
  let (number, input) ← splitBytes 2 input
  let number := (Reader.ofBigEndian number).toUInt16
  let some kind := MessageKind.ofNumber? number | throw (.unknownKind number)
  let (ordinal, input) ← splitBytes 2 input
  let ordinal := (Reader.ofBigEndian ordinal).toUInt16
  let some schema := Version.ofOrdinal? ordinal | throw (.unknownSchema ordinal)
  if version < schema then throw (.newerSchema schema version)
  let (sender, input) ← readField input
  let sender ← parseBody (Reader.option Reader.member) sender
  let (recipient, input) ← readField input
  let recipient ← parseBody (Reader.option Reader.member) recipient
  let (payload, _) ← readField input
  let payload ← parseBody (readPayload kind) payload
  return { sender, recipient, payload }

end Cohort.Codec
