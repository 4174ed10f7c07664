import Cohort.Config
import Cohort.Health.Detector
import Cohort.Json.Basic
import Cohort.Node.Arguments
import Cohort.Transport.Fabric

/-!
How scenarios describe values. A description may be malformed, or be of something that the library
refuses, such as a member of an unknown kind.
-/

namespace Cohort.Scenario

/-- Why a description yields no value. -/
inductive Failure where
  | malformed (what : String)
  | refused (e : ServiceError)
  /-- It has a command line that makes no sense. -/
  | misused (fault : Node.ArgumentFault)
  /-- It speaks of a member that is not there, or not yet. -/
  | absent
  deriving Inhabited

abbrev Run := Except Failure

def malformed {α : Type} (what : String) : Run α := .error (.malformed what)

def orMember {α : Type} (x : Except MemberFault α) : Run α :=
  x.mapError fun e => .refused (.invalidMember e)

def orCodec {α : Type} (x : Except CodecFault α) : Run α := x.mapError fun e => .refused (.codec e)

def orConfig {α : Type} (x : Except ConfigFault α) : Run α := x.mapError fun e => .refused (.config e)

def need {α : Type} (what : String) : Option α → Run α
  | some a => .ok a
  | none => malformed what

def field (j : Json) (key : String) : Run Json := need key (j.find? key)

def text : Json → Run String
  | .str s => .ok s
  | _ => malformed "text"

def int : Json → Run Int
  | .num n => .ok n
  | _ => malformed "number"

def nat : Json → Run Nat
  | .num n => .ok n.toNat
  | _ => malformed "number"

def bool : Json → Run Bool
  | .bool b => .ok b
  | _ => malformed "truth value"

def list : Json → Run (List Json)
  | .arr items => .ok items
  | _ => malformed "list"

/-- A number of 64 bits, written as text. -/
def wide (j : Json) : Run Nat := do need "number" (← text j).toNat?

def bytes (j : Json) : Run (List UInt8) := do return Json.ofHex (← text j).toList

def ip (j : Json) : Run Net.Ip := do need "address" (Net.Ip.parse? (← text j))

def endpoint (j : Json) : Run Net.Endpoint := do need "endpoint" (Net.Endpoint.parse? (← text j))

def millis (j : Json) : Run Span := do return .ofMillis (← nat j)

def listOf {α : Type} (read : Json → Run α) (j : Json) : Run (List α) := do (← list j).mapM read

/-- A member that must be there. -/
def at_ {α : Type} (j : Json) (key : String) (read : Json → Run α) : Run α := do
  read (← field j key)

/-- A member that may be absent or null. -/
def at? {α : Type} (j : Json) (key : String) (read : Json → Run α) : Run (Option α) :=
  match j.get? key with
  | some v => some <$> read v
  | none => .ok none

def atD {α : Type} (j : Json) (key : String) (read : Json → Run α) (default : α) : Run α := do
  return (← at? j key read).getD default

/-- A list that is empty when absent. -/
def listAt {α : Type} (j : Json) (key : String) (read : Json → Run α) : Run (List α) :=
  atD j key (listOf read) []

/-- Changes a record by a member that may be absent. -/
def given {α β : Type} (j : Json) (key : String) (read : Json → Run α) (set : α → β → β)
    (b : β) : Run β := do
  match ← at? j key read with
  | some a => return set a b
  | none => return b

def byte (j : Json) : Run UInt8 := do return (← nat j).toUInt8

def word16 (j : Json) : Run UInt16 := do return (← nat j).toUInt16

def word32 (j : Json) : Run UInt32 := do return (← nat j).toUInt32

def word64 (j : Json) : Run UInt64 := do return (← wide j).toUInt64

def viewId (j : Json) : Run Int32 := do return Int32.ofInt (← int j)

def version (j : Json) : Run Version := do orMember (Version.ofOrdinal (← word16 j))

def instanceTag (j : Json) : Run InstanceTag := do
  match ← list j with
  | [a, b] => return ⟨← word64 a, ← word64 b⟩
  | _ => malformed "tag"

def durable (j : Json) : Run (Option String × UInt32) := do
  match ← list j with
  | [.null, t] => return (none, ← word32 t)
  | [id, t] => return (some (← text id), ← word32 t)
  | _ => malformed "durable"

/-- Fills a draft with the fields that a description has. -/
def draft (d : Draft) (j : Json) : Run Draft := do
  let d ← given j "host" ip (fun v d => { d with host := some v }) d
  let d ← given j "host_name" text (fun v d => { d with hostName := some v }) d
  let d ← given j "mport" word16 (fun v d => { d with membershipPort := v }) d
  let d ← given j "dport" word16 (fun v d => { d with directPort := v }) d
  let d ← given j "pid" word32 (fun v d => { d with processId := v }) d
  let d ← given j "kind" byte (fun v d => { d with kindCode := some v }) d
  let d ← given j "view_id" viewId (fun v d => { d with viewId := v }) d
  let d ← given j "version" version (fun v d => { d with version := v }) d
  let d ← given j "name" text (fun v d => { d with name := some v }) d
  let d ← given j "groups" (listOf text) (fun v d => { d with groups := v }) d
  let d ← if j.has "roles_csv" || j.has "groups_csv" then
      pure (d.mergeGroups (← atD j "roles_csv" text "") (← atD j "groups_csv" text ""))
    else pure d
  let d ← given j "durable" durable
    (fun v d => { d with durableId := v.1, durableTimeout := v.2 }) d
  let d ← given j "pref" bool (fun v d => { d with preferred := some v }) d
  let d ← given j "npd" bool (fun v d => { d with partitionDetection := v }) d
  let d ← given j "weight" byte (fun v d => { d with weight := some v }) d
  let d ← given j "uuid" instanceTag (fun v d => { d with instanceTag := v }) d
  let d ← given j "partial" bool (fun v d => { d with provisional := v }) d
  let d ← given j "tag" text (fun v d => { d with uniqueTag := some v }) d
  given j "require_kind" bool (fun v d => { d with kindRequired := v }) d

def member (j : Json) : Run Member := do orMember (← draft {} j).build

/-- Finds the member that a reference names. -/
abbrev Lookup := Json → Run Member

/-- A reference is an index, an index with the view that took the member in, or a description. -/
def refIn (members : List Member) : Lookup
  | .num n => need "member index" members[n.toNat]?
  | .arr [i, v] => do
    let m ← need "member index" members[← nat i]?
    return m.withViewId (← viewId v)
  | j => member j

def view (look : Lookup) (j : Json) : Run View := do
  return {
    id := ← at_ j "view_id" viewId
    creator := ← at_ j "creator" look
    members := ← listAt j "members" look
    shutdown := ← listAt j "shutdown" look
    crashed := ← listAt j "crashed" look }

def suspicion (look : Lookup) (j : Json) : Run Suspicion := do
  return ⟨← at_ j "suspect" look, ← at_ j "reason" text⟩

def answer (look : Lookup) (j : Json) : Run JoinAnswer := do
  if let some v := j.get? "accepted" then return .accepted (← view look v)
  if let some v := j.get? "redirect" then return .redirect (← look v)
  return .rejected (← at_ j "rejected" text)

/-- The message of a payload's description, without sender and recipient. -/
def payload (look : Lookup) (j : Json) : Run Message := do
  let request : Run UInt64 := at_ j "request_id" word64
  match ← at_ j "type" text with
  | "Handshake" => return .of (.handshake (← at_ j "identity" look))
  | "HeartbeatRequest" => return .of (.heartbeatRequest (← request) (← at_ j "target" look))
  | "HeartbeatResponse" => return .of (.heartbeatResponse (← request))
  | "Suspect" => return .of (.suspect (← at_ j "suspects" (listOf (suspicion look))))
  | "FinalCheckRequest" => return .of (.finalCheckRequest (← request) (← at_ j "target" look))
  | "FinalCheckResponse" => return .of (.finalCheckResponse (← request))
  | "JoinRequest" => return .of (.joinRequest (← at_ j "member" look))
  | "JoinResponse" => return .of (.joinResponse (← answer look j))
  | "LeaveRequest" =>
    return .of (.leaveRequest (← at_ j "member" look) (← at_ j "reason" text))
  | "RemoveMember" =>
    return .of (.removeMember (← at_ j "member" look) (← at_ j "reason" text))
  | "InstallView" => return .of (.installView (← at_ j "view" (view look)))
  | "Application" =>
    orCodec (Message.application (← at? j "kind" word16) (← at_ j "data" bytes))
  | _ => malformed "payload"

def message (look : Lookup) (j : Json) : Run Message := do
  let m ← at_ j "payload" (payload look)
  return { m with sender := ← at? j "sender" look, recipient := ← at? j "recipient" look }

/-- The kind of the application messages that a description is about. -/
def applicationKind (j : Json) : Run MessageKind := do
  return (← orCodec (Message.application (some (← at_ j "kind" word16)) [])).kind

/-- Where a datagram is to go: an address, or everybody. -/
def destination (j : Json) : Run Destination := do
  if (← text j) == "multicast" then return .multicast
  return .endpoint (← endpoint j)

def policy (j : Json) : Run LossPolicy := do
  let threshold ← at_ j "threshold" byte
  match ← atD j "policy" text "weighted" with
  | "count" => return .count threshold
  | _ => return .weighted threshold

def detectorSettings (j : Json) : Run Detector.Settings := do
  return {
    heartbeatInterval := ← at_ j "heartbeat_ms" millis
    memberTimeout := ← at_ j "member_timeout_ms" millis
    finalCheckTimeout := ← at_ j "final_check_ms" millis
    suspectThreshold := ← at_ j "suspect_threshold" nat
    partitionDetection := ← at_ j "partition_detection" bool }

def detectorEvent (look : Lookup) (j : Json) : Run Detector.Event := do
  let request : Run UInt64 := at_ j "request_id" word64
  match ← at_ j "type" text with
  | "HeartbeatTick" => return .heartbeatTick
  | "HeartbeatTimeout" => return .heartbeatTimeout (← at_ j "member" look) (← request)
  | "HeartbeatResponse" => return .heartbeatResponse (← at_ j "from" look) (← request)
  | "SuspectReceived" =>
    return .suspectReceived (← at_ j "reporter" look)
      (← at_ j "suspects" (listOf (suspicion look)))
  | "FinalCheckTimeout" => return .finalCheckTimeout (← at_ j "member" look) (← request)
  | "FinalCheckResponse" => return .finalCheckResponse (← at_ j "from" look) (← request)
  | "FinalCheckFailed" => return .finalCheckFailed (← at_ j "member" look) (← request)
  | "RemoveRequested" =>
    return .removeRequested (← at_ j "requester" look) (← at_ j "member" look)
      (← at_ j "reason" text)
  | "ViewInstalled" => return .viewInstalled (← at_ j "view" (view look))
  | _ => malformed "event"

def security (j : Json) : Run Security := do
  let s : Security := { secret := ← at_ j "secret" bytes }
  let s ← given j "handshake_ms" millis (fun v s => { s with handshakeTimeout := v }) s
  given j "idle_ms" millis (fun v s => { s with idleTimeout := v }) s

/-- The configuration that a description asks for, not yet checked. -/
def configRequest (j : Json) : Run Config := do
  let c : Config := {}
  let c ← given j "name" text (fun v c => { c with name := some v }) c
  let c ← given j "bind" ip (fun v c => { c with bind := v }) c
  let c ← given j "mport" word16 (fun v c => { c with membershipPort := v }) c
  let c ← given j "dport" word16 (fun v c => { c with directPort := v }) c
  let c ← given j "roles" text (fun v c => { c with roles := v }) c
  let c ← given j "groups" text (fun v c => { c with groups := v }) c
  let c ← given j "kind" byte (fun v c => { c with kindCode := some v }) c
  let c ← given j "require_kind" bool (fun v c => { c with kindRequired := v }) c
  let c ← given j "weight" byte (fun v c => { c with weight := some v }) c
  let c ← given j "pref" bool (fun v c => { c with preferred := some v }) c
  let c ← given j "durable" durable
    (fun v c => { c with durableId := v.1, durableTimeout := v.2 }) c
  let c ← given j "heartbeat_ms" millis (fun v c => { c with heartbeatInterval := v }) c
  let c ← given j "member_timeout_ms" millis (fun v c => { c with memberTimeout := v }) c
  let c ← given j "final_check_ms" millis (fun v c => { c with finalCheckTimeout := v }) c
  let c ← given j "suspect_threshold" word32 (fun v c => { c with suspectThreshold := v }) c
  let c ← given j "join_ms" millis (fun v c => { c with joinTimeout := v }) c
  let c ← given j "shutdown_ms" millis (fun v c => { c with shutdownTimeout := v }) c
  let c ← given j "tick_ms" millis (fun v c => { c with schedulerTick := v }) c
  let c ← given j "partition_detection" bool (fun v c => { c with partitionDetection := v }) c
  let c ← given j "loss_threshold" byte (fun v c => { c with lossThreshold := v }) c
  let c ← given j "locators" (listOf endpoint) (fun v c => { c with locators := v }) c
  let c ← given j "multicast" endpoint
    (fun v c => { c with multicastEnabled := true, multicastGroup := some v }) c
  let c ← given j "multicast_enabled" bool (fun v c => { c with multicastEnabled := v }) c
  let c ← given j "tcp_disabled" bool (fun v c => { c with channelDisabled := v }) c
  let c ← given j "max_datagram" nat (fun v c => { c with maxDatagram := v }) c
  given j "encryption" security (fun v c => { c with security := some v }) c

/-- A configuration for a machine of the given name, checked. -/
def config (hostName : String) (j : Json) : Run Config := do
  orConfig ((← configRequest j).validate hostName)

end Cohort.Scenario
