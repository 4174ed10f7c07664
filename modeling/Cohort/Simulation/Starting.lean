import Cohort.Member.Local
import Cohort.Node.Arguments
import Cohort.Simulation.Threads

/-!
How nodes come to be and how they go: members with all that belongs to them, bare messengers, and
bare transports.
-/

namespace Cohort.Simulation

open Net (Endpoint Ip)

/-- Adds a node; gives its index. -/
def addNode (n : Node) : Sim Nat := do
  let w ← get
  set { w with nodes := w.nodes.push n }
  return w.nodes.size

/-! ### The datagram side -/

structure StationPlan where
  address : Endpoint
  maxDatagram : Nat
  group : Option Endpoint := none
  security : Option Security := none
  heard : Bool := true

def bindSocket (node : Nat) (host : Ip) (address : Endpoint) : Sim (Except TransportFault Nat) := do
  let w ← get
  let (network, result) := w.network.bindSocket host address
  set { w with network := network }
  match result with
  | .error fault => return .error (.io fault)
  | .ok socket =>
    let receiver : Receiver := { node := node }
    modify fun w => { w with receivers := w.receivers ++ [(socket, receiver)] }
    wake (.socket socket)
    return .ok socket

def wildcardFor : Ip → Ip
  | .v4 _ => .v4 0
  | .v6 _ _ => .v6 0 0

/-- Binds a second socket on all interfaces and has it join a multicast group. -/
def bindGroup (node : Nat) (host : Ip) (group : Endpoint) : Sim (Except TransportFault Nat) := do
  match ← bindSocket node host { ip := wildcardFor group.ip, port := group.port } with
  | .error fault => return .error fault
  | .ok socket =>
    let w ← get
    match w.network.joinGroup socket group.ip with
    | .error fault =>
      closeSocket socket
      return .error (.io fault)
    | .ok network =>
      set { w with network := network }
      return .ok socket

def secureTransport (s : Security) : SecureTransport Gcm.Key where
  secret := s.secret
  handshakeTimeout := s.handshakeTimeout.millis
  idleTimeout := s.idleTimeout.millis

def openStation (node : Nat) (plan : StationPlan) : Sim (Except TransportFault Station) := do
  let some n ← node? node | return .error (.io .invalidArgument)
  match ← bindSocket node n.host plan.address with
  | .error fault => return .error fault
  | .ok main =>
    let group ← match plan.group with
      | none => pure (.ok none)
      | some g => do pure ((← bindGroup node n.host g).map some)
    match group with
    | .error fault =>
      closeSocket main
      return .error fault
    | .ok group =>
      let address := ((← get).network.sockets[main]?.map (·.address)).getD plan.address
      let s : Station := {
        address := address
        link := .sockets main group
        group := plan.group
        maxDatagram := plan.maxDatagram
        secure := plan.security.map secureTransport
        heard := plan.heard }
      modifyNode node fun n => { n with station := some s }
      return .ok s

def joinFabric (node : Nat) (plan : StationPlan) : Sim (Except TransportFault Station) := do
  let w ← get
  let (fabric, result) := w.fabric.bind plan.address
  set { w with fabric := fabric }
  match result with
  | .error fault => return .error fault
  | .ok address =>
    let s : Station := {
      address := address
      link := .fabric
      maxDatagram := plan.maxDatagram
      secure := plan.security.map secureTransport
      heard := plan.heard }
    modifyNode node fun n => { n with station := some s }
    return .ok s

/-! ### Messengers -/

def openMessenger (node : Nat) (address : Endpoint) (connectTimeout shutdownTimeout : Span) :
    Sim (Except IoFault Endpoint) := do
  let some n ← node? node | return .error .invalidArgument
  let w ← get
  let (network, result) := w.network.listen n.host address
  set { w with network := network }
  match result with
  | .error fault => return .error fault
  | .ok listener =>
    let address := (network.listeners[listener]?.map (·.address)).getD address
    let m : Messenger := {
      address := address
      connectTimeout := connectTimeout
      shutdownTimeout := shutdownTimeout }
    modifyNode node fun n => { n with messenger := some m, listener := some listener }
    wake (.acceptor node)
    return .ok address

/-! ### Members -/

def nthTag (n : Nat) : InstanceTag := ⟨0x4000, 0x8000000000000000 + n.toUInt64⟩

def machineOf (w : World) (host : Ip) : Machine where
  hostName := w.hostName
  processId := w.processId
  interfaces := (w.interfaces.lookup host).getD [[.localhost], [host]]

/-- The identity of a member that starts. -/
def makeIdentity (host : Ip) (config : Config) (membership : Endpoint) (directPort : UInt16) :
    Sim (Except ServiceError Member) := do
  let w ← get
  let machine := machineOf w host
  if (Net.advertised machine.interfaces membership.ip).isOk then
    set { w with identities := w.identities + 1 }
  let tag := nthTag (w.identities + 1)
  return (config.identity machine tag membership directPort).mapError .invalidMember

def managerOf (config : Config) (policy : LossPolicy) (self : Member) (channel : Option Endpoint)
    (now : Nat) : Manager where
  config := config
  policy := policy
  self := self
  channel := channel
  pulse := { ticker := some ⟨config.schedulerTick.millis, now⟩ }

/-- The member of a node begins to live: its pulse first, then its way into a group. -/
def launch (node number : Nat) (m : Manager) : Sim Unit := do
  modifyNode node fun n => { n with
    kind := .member
    manager := some m
    messenger := n.messenger.map fun c => { c with self := some m.self } }
  wake (.actor node .pulse)
  wake (.reader node)
  runThread (← addThread node (.joining number) (.member (.ready Manager.start)))

def openChannel (node : Nat) (config : Config) : Sim (Except ServiceError (Option Endpoint)) := do
  if config.channelDisabled then return .ok none
  let address : Endpoint := { ip := config.bind, port := config.directPort }
  match ← openMessenger node address config.finalCheckTimeout config.shutdownTimeout with
  | .ok address => return .ok (some address)
  | .error fault => return .error (.transport (.io fault))

/-- Sets a member up on the datagram side that its node has. -/
def assemble (node number : Nat) (config : Config) (policy : LossPolicy) (membership : Endpoint) :
    Sim (Except ServiceError Unit) := do
  let some n ← node? node | return .ok ()
  match ← openChannel node config with
  | .error e => return .error e
  | .ok channel =>
    match ← makeIdentity n.host config membership ((channel.map (·.port)).getD 0) with
    | .error e => return .error e
    | .ok self =>
      launch node number (managerOf config policy self channel (← clock))
      return .ok ()

def planOf (config : Config) : StationPlan where
  address := { ip := config.bind, port := config.membershipPort }
  maxDatagram := config.maxDatagram
  group := if config.multicastEnabled then config.multicastGroup else none
  security := config.security

/-- Starts a member on a node. The outcome of the join is recorded, also that of one that cannot even
begin. -/
def startMember (node number : Nat) (config : Config) (policy : LossPolicy) (plan : StationPlan) :
    Sim Unit := do
  match ← openStation node plan with
  | .error fault => settleJoin node number (.error (.ofTransport fault))
  | .ok s =>
    match ← assemble node number config policy s.address with
    | .error e =>
      abandonStation node
      settleJoin node number (.error e)
    | .ok _ => return

/-! ### Going -/

/-- Nobody holds a node any more. What works in it still holds it. -/
def dropNode (node : Nat) : Sim Unit := do
  modifyNode node fun n => { n with dropped := true }
  reap node

end Cohort.Simulation
