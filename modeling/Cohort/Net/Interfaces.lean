import Cohort.Net.Address

/-!
The addresses of a host's interfaces and the one that its members advertise.
-/

namespace Cohort.Net

def noRoutableAddress : String := "no routable IPv4 or IPv6 address on any interface"

/-- The first address that is neither of the loopback nor a wildcard, IPv4 before IPv6. -/
def findRoutable (interfaces : List (List Ip)) : Except String Ip :=
  let candidates := interfaces.flatten.filter fun ip => !ip.isLoopback && !ip.isUnspecified
  match (candidates.find? (·.isV4)).or candidates.head? with
  | some ip => .ok ip
  | none => .error noRoutableAddress

/-- What a member bound to an address advertises: that address, or for a wildcard a routable one. -/
def advertised (interfaces : List (List Ip)) (bind : Ip) : Except String Ip :=
  if bind.isUnspecified then findRoutable interfaces else .ok bind

end Cohort.Net
