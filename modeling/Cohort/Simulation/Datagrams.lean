import Cohort.Simulation.World

/-!
The datagram side of nodes: how a datagram is sent, plain or through a session, and how one that
arrives gets from the socket to whoever reads it.
-/

namespace Cohort.Simulation

open Net (Endpoint Ip)

def station? (index : Nat) : Sim (Option Station) := return (← node? index).bind (·.station)

def feed (index : Nat) (d : Datagram) : Sim Unit := do
  let some s ← station? index | return
  match s.secure with
  | some secure =>
    if !secure.closed then
      modifyStation index fun s => { s with arrived := s.arrived.push d }
      wake (.pump index)
  | none =>
    if s.heard then
      modifyStation index fun s => { s with arrived := s.arrived.push d }
      wake (.reader index)

/-- A datagram arrives at an endpoint of the fabric: at a node, or at a scripted peer. -/
def arriveAt (d : Datagram) (target : Endpoint) : Sim Unit := do
  let w ← get
  let here (n : Node) : Bool := match n.station with
    | some s => s.link == .fabric && s.address == target
    | none => false
  match w.nodes.findIdx? here with
  | some index => feed index d
  | none =>
    match w.peers.findIdx? (·.member.membershipAddress == target) with
    | some peer =>
      modify fun w => { w with
        peerDatagrams := w.peerDatagrams ++ [(peer, d)]
        peers := w.peers.modify peer fun p => { p with mail := p.mail ++ [.datagram d] } }
      wake (.peerSocket peer)
    | none => return

def sendPlain (index : Nat) (target : Destination) (data : List UInt8) :
    Sim (Except TransportFault Unit) := do
  let some s ← station? index | return .error (.io .shutDown)
  if s.closed then return .error (.io .shutDown)
  if data.length > s.maxDatagram then
    return .error (.payloadTooLarge data.length s.maxDatagram)
  match s.link with
  | .fabric =>
    let w ← get
    let (fabric, result) := w.fabric.send s.address target data
    set { w with fabric := fabric }
    match result with
    | .error fault => return .error fault
    | .ok arrivals =>
      for a in arrivals do arriveAt ⟨s.address, data⟩ a
      return .ok ()
  | .sockets main _ =>
    let endpoint := match target with
      | .endpoint e => some e
      | .multicast => s.group
    match endpoint with
    | none => return .error .multicastDisabled
    | some e =>
      let w ← get
      let (network, result) := w.network.send main e data
      set { w with network := network }
      match result with
      | .error fault => return .error (.io fault)
      | .ok woken =>
        wakeAll woken
        return .ok ()

def carryOut (index : Nat) (effects : List SecureTransport.Effect) : Sim Unit := do
  for e in effects do
    match e with
    | .transmit peer record =>
      let _ ← sendPlain index (.endpoint peer) record
    | .deliver peer body =>
      if ((← station? index).map (·.heard)).getD false then
        modifyStation index fun s => { s with opened := s.opened.push ⟨peer, body⟩ }
        wake (.reader index)
    | .attend number => wake (.session index number)
    | .settled number =>
      let waits (t : Nat × Thread) : Option (Nat × Task) :=
        match t.2.waiting? with
        | some (_, .handshake caller since) =>
          if t.2.node == index && caller.number == number then some (since, taskOf t.1 t.2) else none
        | _ => none
      let waiting := (← get).threads.filterMap waits
      wakeAll ((waiting.mergeSort fun a b => a.1 ≤ b.1).map (·.2))

def modifySecure (index : Nat) (t : SecureTransport Gcm.Key) : Sim Unit :=
  modifyStation index fun s => { s with secure := some t }

/-- Routes what has arrived to the sessions of a node, at most `count` entries. -/
def pump (index : Nat) : Nat → Sim Unit
  | 0 => return
  | count + 1 => do
    let some s ← station? index | return
    let some secure := s.secure | return
    if secure.closed then return
    match s.arrived.next? with
    | none => return
    | some (entry, rest) =>
      modifyStation index fun s => { s with arrived := rest }
      match entry with
      | .lagged _ => pure ()
      | .item d =>
        let (secure, effects) := secure.route .standard (← clock) d.source d.data
        modifySecure index secure
        carryOut index effects
      pump index count

def runPump (index : Nat) : Sim Unit := do
  let some s ← station? index | return
  pump index s.arrived.length

def attend (index number : Nat) : Nat → Sim Unit
  | 0 => return
  | count + 1 => do
    let some s ← station? index | return
    let some secure := s.secure | return
    let some node ← node? index | return
    let fresh ← if secure.needsRandom number then draw node.host else pure []
    let (secure, effects, more) := secure.attend .standard (← clock) fresh number
    modifySecure index secure
    carryOut index effects
    if more then attend index number count

/-- A session attends to its records, and is dropped when its time is over. -/
def runSession (index number : Nat) : Sim Unit := do
  let some s ← station? index | return
  let some secure := s.secure | return
  attend index number (secure.queued number)
  let some s ← station? index | return
  let some secure := s.secure | return
  let now ← clock
  let (secure, effects) := secure.expire .standard now number
  modifySecure index secure
  carryOut index effects
  match secure.expiresAt? number with
  | some due => wakeOnlyAt due (.session index number)
  | none => return

/-! ### Reading sockets -/

def modifyReceiver (socket : Nat) (f : Receiver → Receiver) : Sim Unit :=
  modify fun w => { w with
    receivers := w.receivers.map fun (i, r) => if i == socket then (i, f r) else (i, r) }

/-- The shortest pause of a reader that has given up for now. -/
def shortestRest : Span := .ofMillis 100

def pauseMillis : Pause → Nat
  | .none => 0
  | .retry delay => (delay.nanos + 999999) / 1000000
  | .stopped rest => (max rest.nanos shortestRest.nanos + 999999) / 1000000

/-- Stops to read a socket; one for a multicast group is closed with that. -/
def stopReceiver (socket : Nat) (s : Station) : Sim Unit := do
  modifyReceiver socket fun r => { r with stopped := true }
  match s.link with
  | .sockets _ group =>
    if group == some socket then
      modify fun w => { w with network := w.network.closeSocket socket }
  | .fabric => return

/-- Before a read: considers whether to pause. -/
def beforeRead (socket : Nat) (r : Receiver) : Sim Unit := do
  let w ← get
  let (backoff, pause) := r.backoff.pause w.nanos
  let ms := pauseMillis pause
  modifyReceiver socket fun r =>
    if ms = 0 then { r with backoff := backoff, reading := true }
    else { r with backoff := backoff, pausedUntil := some (w.now + ms) }

/-- One read. Says whether there was anything. -/
def readOnce (socket : Nat) (r : Receiver) (s : Station) : Sim Bool := do
  let w ← get
  let (network, received) := w.network.receive socket (.socket socket)
  set { w with network := network }
  match received with
  | .nothing => return false
  | .failed =>
    modifyReceiver socket fun r =>
      { r with backoff := r.backoff.failure w.nanos, reading := false }
    return true
  | .datagram d =>
    let fits := d.data.length ≤ s.maxDatagram
    modifyReceiver socket fun r =>
      { r with backoff := if fits then r.backoff.success else r.backoff, reading := false }
    if fits then feed r.node d
    return true

/-- Reads a socket until there is nothing to read or a pause begins, in at most `count` steps. -/
def readSocket (socket : Nat) : Nat → Sim Unit
  | 0 => return
  | count + 1 => do
    let some r := (← get).receivers.lookup socket | return
    if r.stopped then return
    let some s ← station? r.node | return
    match r.pausedUntil with
    | some due =>
      if (← clock) ≥ due then
        modifyReceiver socket fun r => { r with pausedUntil := none, reading := true }
        readSocket socket count
      else if s.closed then stopReceiver socket s
      else wakeAt due (.socket socket)
    | none =>
      if !r.reading then
        beforeRead socket r
        readSocket socket count
      else if ← readOnce socket r s then readSocket socket count
      else if s.closed then stopReceiver socket s

def runSocket (socket : Nat) : Sim Unit := do
  let some s := (← get).network.sockets[socket]? | return
  readSocket socket (3 * s.queue.length + 8)

def closeSession (index : Nat) (peer : Endpoint) : Sim Unit := do
  let some s ← station? index | return
  let some secure := s.secure | return
  let (secure, effects) := secure.closeSession .standard peer
  modifySecure index secure
  carryOut index effects

/-- Drops a session of a node with a peer; the peer does not hear of it. -/
def forgetSession (index : Nat) (peer : Endpoint) (role : Role) : Sim Unit := do
  let some s ← station? index | return
  let some secure := s.secure | return
  let (secure, effects) := secure.forget peer role
  modifySecure index secure
  carryOut index effects

/-- Closes the transport of a node: its sessions, if it has any, and its sockets. The main socket
stays bound. -/
def closeTransport (index : Nat) : Sim Unit := do
  let some s ← station? index | return
  if let some secure := s.secure then
    let (secure, effects) := secure.shutdown .standard
    modifySecure index secure
    carryOut index effects
  modifyStation index fun s => { s with closed := true }
  match s.link with
  | .fabric => if !s.closed then modify fun w => { w with fabric := w.fabric.release s.address }
  | .sockets main group =>
    wake (.socket main)
    wakeAll (group.toList.map .socket)

/-! ### Going -/

def closeSocket (socket : Nat) : Sim Unit :=
  modify fun w => { w with
    network := w.network.closeSocket socket
    receivers := w.receivers.filter (·.1 != socket) }

/-- The datagram side of a node goes, unless its sessions keep it. -/
def abandonStation (node : Nat) : Sim Unit := do
  let some n ← node? node | return
  let some s := n.station | return
  match s.secure with
  | some secure =>
    if !secure.closed then
      modifyStation node fun s => { s with heard := false }
      return
  | none => pure ()
  modifyNode node fun n => { n with station := none }
  match s.link with
  | .fabric => modify fun w => { w with fabric := w.fabric.release s.address }
  | .sockets main group =>
    closeSocket main
    for g in group do closeSocket g

end Cohort.Simulation
