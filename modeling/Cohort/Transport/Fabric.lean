import Cohort.Error

/-!
A network within one process: transports at made-up endpoints, without loss. An endpoint can be made
unreachable, and then datagrams from it and to it vanish.
-/

namespace Cohort

open Net (Endpoint)

inductive Destination where
  | endpoint (target : Endpoint)
  | multicast
  deriving DecidableEq, Repr

/-- A datagram handed to a fabric, whether or not it was delivered. -/
structure FabricDatagram where
  source : Endpoint
  destination : Destination
  data : List UInt8
  deriving DecidableEq, Repr

structure Fabric where
  /-- Whether multicast reaches every other endpoint. -/
  multicast : Bool := false
  nextPort : Nat := 40000
  endpoints : List Endpoint := []
  unreachable : List Endpoint := []
  sent : List FabricDatagram := []
  deriving DecidableEq, Repr

namespace Fabric

/-- The most that a datagram holds. -/
def maxDatagram : Nat := 1400

/-- Binds an endpoint; port 0 stands for a fresh one, in no zone. -/
def bind (f : Fabric) (address : Endpoint) : Fabric × Except TransportFault Endpoint :=
  let fresh := address.port = 0
  let address := if fresh then { ip := address.ip, port := f.nextPort.toUInt16 } else address
  let f := if fresh then { f with nextPort := f.nextPort + 1 } else f
  if address ∈ f.endpoints then (f, .error (.io (.stated address.render)))
  else ({ f with endpoints := f.endpoints ++ [address] }, .ok address)

def release (f : Fabric) (address : Endpoint) : Fabric :=
  { f with endpoints := f.endpoints.filter (· ≠ address) }

def setReachable (f : Fabric) (address : Endpoint) (reachable : Bool) : Fabric :=
  let others := f.unreachable.filter (· ≠ address)
  { f with unreachable := if reachable then others else others ++ [address] }

def isReachable (f : Fabric) (address : Endpoint) : Bool := !f.unreachable.contains address

/-- The endpoints, of those meant, at which a datagram arrives. -/
def arrivals (f : Fabric) (source : Endpoint) (meant : List Endpoint) : List Endpoint :=
  if f.isReachable source then meant.filter f.isReachable else []

/-- Sends a datagram from an endpoint; gives the endpoints at which it arrives. -/
def send (f : Fabric) (source : Endpoint) (destination : Destination) (data : List UInt8) :
    Fabric × Except TransportFault (List Endpoint) :=
  if data.length > maxDatagram then (f, .error (.payloadTooLarge data.length maxDatagram))
  else
    let f := { f with sent := ⟨source, destination, data⟩ :: f.sent }
    match destination with
    | .endpoint target =>
      if target ∈ f.endpoints then (f, .ok (f.arrivals source [target])) else
        (f, .error (.unreachable target))
    | .multicast =>
      if f.multicast then (f, .ok (f.arrivals source (f.endpoints.filter (· ≠ source))))
      else (f, .error .multicastDisabled)

end Fabric

end Cohort
