import Cohort.Health.Detector
import Cohort.Json.Basic
import Cohort.Membership.Manager
import Cohort.Node.Arguments
import Cohort.Statistics.Basic

/-!
How values are shown in reports. Members are shown in full or by their text.
-/

namespace Cohort.Report

/-- How members are shown: in full, by their text, or by their name. -/
abbrev Form := Member → Json

def endpoint (e : Net.Endpoint) : Json := .str e.render

def ip (a : Net.Ip) : Json := .str a.render

def transportKind : TransportFault → String
  | .io _ => "Io"
  | .payloadTooLarge .. => "PayloadTooLarge"
  | .unreachable _ => "Unreachable"
  | .multicastDisabled => "MulticastDisabled"
  | .connectionLost _ => "ConnectionLost"
  | .handshake .. => "Handshake"

def failure (kind message : String) : Json :=
  .obj [("error", .str kind), ("message", .str message)]

def transportFault (fault : TransportFault) : Json :=
  failure ("Transport." ++ transportKind fault) fault.message

def errorKind : ServiceError → String
  | .transport fault => "Transport." ++ transportKind fault
  | .handshake _ => "Handshake"
  | .closed => "MembershipClosed"
  | .invalidMember _ => "InvalidIdentifier"
  | .memberRemoved _ => "MemberRemoved"
  | .codec _ => "Codec"
  | .config _ => "Config"
  | .other _ => "Other"

def error (e : ServiceError) : Json := failure (errorKind e) e.message

def argumentKind : Node.ArgumentFault → String
  | .displayHelp => "DisplayHelp"
  | .displayVersion => "DisplayVersion"
  | .unknownArgument => "UnknownArgument"
  | .invalidValue => "InvalidValue"
  | .valueValidation => "ValueValidation"
  | .argumentConflict => "ArgumentConflict"
  | .tooManyValues => "TooManyValues"

/-- Command lines are refused without a message. -/
def argumentFault (fault : Node.ArgumentFault) : Json :=
  .obj [("error", .str ("Args." ++ argumentKind fault))]

def durable (m : Member) : Json :=
  .arr [.ofOption .str m.durableId, .nat m.durableTimeout.toNat]

def memberFields (m : Member) : List (String × Json) := [
  ("host", ip m.host),
  ("host_name", .str m.hostName),
  ("mport", .nat m.membershipPort.toNat),
  ("dport", .nat m.directPort.toNat),
  ("pid", .nat m.processId.toNat),
  ("kind", .nat m.kind.code.toNat),
  ("view_id", .num m.viewId.toInt),
  ("version", .nat m.version.ordinal.toNat),
  ("name", .str m.name),
  ("groups", .ofList .str m.groups),
  ("durable", durable m),
  ("pref", .bool m.preferred),
  ("npd", .bool m.partitionDetection),
  ("weight", .nat m.weight.toNat),
  ("uuid", .arr [.wide m.instanceTag.high.toNat, .wide m.instanceTag.low.toNat]),
  ("partial", .bool m.provisional),
  ("tag", .ofOption .str m.uniqueTag)]

def full : Form := fun m => .obj (memberFields m)

def short : Form := fun m => .str m.detail

def name : Form := fun m => .str m.name

def viewFields (form : Form) (v : View) : List (String × Json) := [
  ("view_id", .num v.id.toInt),
  ("creator", form v.creator),
  ("members", .ofList form v.members),
  ("shutdown", .ofList form v.shutdown),
  ("crashed", .ofList form v.crashed)]

def view (form : Form) (v : View) : Json := .obj (viewFields form v)

def event (form : Form) : View.Event → Json
  | .joined m => .obj [("MemberJoined", form m)]
  | .left m => .obj [("MemberLeft", form m)]
  | .crashed m => .obj [("MemberCrashed", form m)]
  | .coordinatorChanged p c => .obj [("CoordinatorChanged", .arr [.ofOption form p, form c])]
  | .installed v => .obj [("ViewInstalled", .num v.id.toInt)]
  | .partitionDetected ms lost total =>
    .obj [("PartitionDetected", .arr [.ofList form ms, .nat lost.toNat, .nat total.toNat])]
  | .expelled v => .obj [("Expelled", .num v.id.toInt)]

def answer (form : Form) : JoinAnswer → String × Json
  | .accepted v => ("accepted", view form v)
  | .redirect m => ("redirect", form m)
  | .rejected reason => ("rejected", .str reason)

def suspicion (form : Form) (s : Suspicion) : Json :=
  .obj [("suspect", form s.suspect), ("reason", .str s.reason)]

def request (r : UInt64) : String × Json := ("request_id", .wide r.toNat)

def payload (form : Form) (p : Payload) : Json :=
  let make (type : String) (fields : List (String × Json)) := Json.obj (("type", .str type) :: fields)
  match p with
  | .handshake m => make "Handshake" [("identity", form m)]
  | .heartbeatRequest r m => make "HeartbeatRequest" [request r, ("target", form m)]
  | .heartbeatResponse r => make "HeartbeatResponse" [request r]
  | .suspect ss => make "Suspect" [("suspects", .ofList (suspicion form) ss)]
  | .finalCheckRequest r m => make "FinalCheckRequest" [request r, ("target", form m)]
  | .finalCheckResponse r => make "FinalCheckResponse" [request r]
  | .joinRequest m => make "JoinRequest" [("member", form m)]
  | .joinResponse a => make "JoinResponse" [answer form a]
  | .leaveRequest m reason => make "LeaveRequest" [("member", form m), ("reason", .str reason)]
  | .removeMember m reason => make "RemoveMember" [("member", form m), ("reason", .str reason)]
  | .installView v => make "InstallView" [("view", view form v)]
  | .application _ data => make "Application" [("data", .hex data)]

def message (form : Form) (m : Message) : Json := .obj [
  ("kind", .str m.kind.text),
  ("sender", .ofOption form m.sender),
  ("recipient", .ofOption form m.recipient),
  ("payload", payload form m.payload)]

def action : Detector.Action → Json
  | .sendHeartbeat m r => .obj [("SendHeartbeat", .arr [short m, .wide r.toNat])]
  | .broadcastSuspect m reason => .obj [("BroadcastSuspect", .arr [short m, .str reason])]
  | .sendFinalCheck m r => .obj [("SendFinalCheck", .arr [short m, .wide r.toNat])]
  | .requestRemoval c m reason => .obj [("RequestRemoval", .arr [short c, short m, .str reason])]
  | .installView v => .obj [("InstallView", view short v)]
  | .partitionDetected ms lost total =>
    .obj [("PartitionDetected", .arr [.ofList short ms, .nat lost.toNat, .nat total.toNat])]

def phase : Phase → Json
  | .joining => .str "Joining"
  | .running => .str "Running"
  | .expelled => .str "Expelled"
  | .closed => .str "Closed"

/-- Every counter but those that measure time. -/
def statistics (s : Statistics) : Json :=
  .obj ((Counter.all.filter (!·.isTime)).map fun c => (c.name, .wide (s.get c).toNat))

end Cohort.Report
