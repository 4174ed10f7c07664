import Cohort.Config
import Cohort.Net.Interfaces

/-!
The identity of the member that runs here, before a view has taken it in.
-/

namespace Cohort

/-- What a member finds on the machine it runs on. -/
structure Machine where
  hostName : String
  processId : UInt32
  interfaces : List (List Net.Ip)
  deriving Repr

namespace Machine

/-- A draft of a process at the first routable address of the machine. -/
def draft (machine : Machine) (hostName : String) (tag : InstanceTag) : Except MemberFault Draft :=
  match Net.findRoutable machine.interfaces with
  | .ok ip => .ok (.forLocal ip hostName machine.processId tag)
  | .error cause => .error (.noLocalAddress cause)

end Machine

namespace Config

def identity (config : Config) (machine : Machine) (tag : InstanceTag)
    (membership : Net.Endpoint) (directPort : UInt16) : Except MemberFault Member :=
  match Net.advertised machine.interfaces membership.ip with
  | .error cause => .error (.noAdvertisedAddress cause)
  | .ok ip =>
    Draft.build {
      Draft.forLocal ip machine.hostName machine.processId tag with
      name := some config.displayName
      membershipPort := membership.port
      directPort := directPort
      groups := Groups.merge config.roles config.groups
      durableId := config.durableId
      durableTimeout := config.durableTimeout
      partitionDetection := config.partitionDetection
      kindRequired := config.kindRequired
      kindCode := config.kindCode
      weight := config.weight
      preferred := config.preferred }

end Config

end Cohort
