import Cohort.Member.Basic
import Cohort.Member.Groups

/-!
Drafts: what is known of a member before it is complete. Nothing is checked while a draft is
filled in; `Draft.build` checks it, and puts defaults where nothing was said.
-/

namespace Cohort

inductive MemberFault where
  | noHost
  | noKind
  | unknownKind (code : UInt8)
  | unknownVersion (ordinal : UInt16)
  | noLocalAddress (cause : String)
  | noAdvertisedAddress (cause : String)
  | noDirectChannel (coordinator : String)
  /-- A cause in the words of whoever found it. -/
  | stated (text : String)
  deriving DecidableEq, Repr

namespace MemberFault

def text : MemberFault → String
  | .noHost => "host address is not set"
  | .noKind => "vm kind is not set"
  | .unknownKind code => s!"unknown vm kind {code}"
  | .unknownVersion ordinal => s!"unsupported version ordinal {ordinal}"
  | .noLocalAddress cause => s!"unable to resolve local host address: {cause}"
  | .noAdvertisedAddress cause => s!"unable to resolve the advertised address: {cause}"
  | .noDirectChannel coordinator => s!"coordinator {coordinator} has no direct channel"
  | .stated text => text

def message (fault : MemberFault) : String := "invalid member identifier: " ++ fault.text

end MemberFault

def Version.ofOrdinal (ordinal : UInt16) : Except MemberFault Version :=
  match Version.ofOrdinal? ordinal with
  | some version => .ok version
  | none => .error (.unknownVersion ordinal)

structure Draft where
  host : Option Net.Ip := none
  hostName : Option String := none
  membershipPort : UInt16 := 0
  directPort : UInt16 := 0
  processId : UInt32 := 0
  kindCode : Option UInt8 := none
  viewId : Int32 := -1
  version : Version := .current
  name : Option String := none
  groups : List String := []
  durableId : Option String := none
  durableTimeout : UInt32 := 0
  preferred : Option Bool := none
  partitionDetection : Bool := false
  weight : Option UInt8 := none
  instanceTag : InstanceTag := .zero
  provisional : Bool := false
  uniqueTag : Option String := none
  kindRequired : Bool := false
  deriving DecidableEq, Repr

namespace Draft

def forHost (host : Net.Ip) (hostName : String) : Draft :=
  { host := some host, hostName := some hostName }

/-- A draft of this process at the address that it advertises. -/
def forLocal (host : Net.Ip) (hostName : String) (processId : UInt32) (tag : InstanceTag) : Draft :=
  { forHost host hostName with processId := processId, instanceTag := tag }

/-- Everything that a member says, as a draft. -/
def ofMember (m : Member) : Draft where
  host := some m.host
  hostName := some m.hostName
  membershipPort := m.membershipPort
  directPort := m.directPort
  processId := m.processId
  kindCode := some m.kind.code
  viewId := m.viewId
  version := m.version
  name := some m.name
  groups := m.groups
  durableId := m.durableId
  durableTimeout := m.durableTimeout
  preferred := some m.preferred
  partitionDetection := m.partitionDetection
  weight := some m.weight
  instanceTag := m.instanceTag
  provisional := m.provisional
  uniqueTag := m.uniqueTag

def mergeGroups (draft : Draft) (roles groups : String) : Draft :=
  { draft with groups := Groups.merge roles groups }

/-- The kind that the draft states: the normal one if it states none and need not. -/
def kind (draft : Draft) : Except MemberFault Kind :=
  match draft.kindCode with
  | none => if draft.kindRequired then .error .noKind else .ok .normal
  | some code =>
    match Kind.ofCode? code with
    | some kind => .ok kind
    | none => .error (.unknownKind code)

/-- The member that a draft describes. Locators are preferred unless the draft says otherwise, and
no kind that may not coordinate is. -/
def build (draft : Draft) : Except MemberFault Member :=
  match draft.host with
  | none => .error .noHost
  | some host =>
    match draft.kind with
    | .error fault => .error fault
    | .ok kind =>
      let hostName := draft.hostName.getD host.render
      .ok {
        host := host
        hostName := hostName
        membershipPort := draft.membershipPort
        directPort := draft.directPort
        processId := draft.processId
        kind := kind
        viewId := draft.viewId
        version := draft.version
        name := draft.name.getD hostName
        groups := draft.groups
        durableId := draft.durableId
        durableTimeout := draft.durableTimeout
        preferred := kind.mayCoordinate && draft.preferred.getD (kind == .locator)
        partitionDetection := draft.partitionDetection
        weight := draft.weight.getD kind.defaultWeight
        instanceTag := draft.instanceTag
        provisional := draft.provisional
        uniqueTag := draft.uniqueTag
        preferred_may := fun h => (Bool.and_eq_true_iff.1 h).1 }

end Draft

end Cohort
