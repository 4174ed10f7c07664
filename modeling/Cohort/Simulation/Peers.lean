import Cohort.Simulation.Threads

/-!
Scripted peers. A peer keeps what it receives, and may answer heartbeat requests and final checks at
once. Everything else that it sends comes from the script.
-/

namespace Cohort.Simulation

open Net (Endpoint Ip)

def modifyPeer (peer : Nat) (f : Peer → Peer) : Sim Unit :=
  modify fun w => { w with peers := w.peers.modify peer f }

/-! ### Datagrams -/

def sendAsPeer (peer : Nat) (target : Endpoint) (data : List UInt8) : Sim Outcome := do
  let w ← get
  let some p := w.peers[peer]? | return .ok ()
  match p.socket with
  | some socket =>
    let (network, result) := w.network.send socket target data
    set { w with network := network }
    match result with
    | .error fault => return .error (.transport (.io fault))
    | .ok woken =>
      wakeAll woken
      return .ok ()
  | none =>
    let source := p.member.membershipAddress
    let (fabric, result) := w.fabric.send source (.endpoint target) data
    set { w with fabric := fabric }
    match result with
    | .error fault => return .error (.transport fault)
    | .ok arrivals =>
      for a in arrivals do arriveAt ⟨source, data⟩ a
      return .ok ()

/-- Takes what has arrived at a peer's socket, at most `count` datagrams. -/
def readAsPeer (peer socket : Nat) : Nat → Sim Unit
  | 0 => return
  | count + 1 => do
    let w ← get
    let (network, received) := w.network.receive socket (.peerSocket peer)
    set { w with network := network }
    match received with
    | .nothing => return
    | .failed => readAsPeer peer socket count
    | .datagram d =>
      modify fun w => { w with peerDatagrams := w.peerDatagrams ++ [(peer, d)] }
      modifyPeer peer fun p => { p with mail := p.mail ++ [.datagram d] }
      readAsPeer peer socket count

/-! ### Connections that a peer opens -/

def writeAsPeer (peer connection : Nat) (target : Endpoint) (data : List UInt8) : Sim Outcome := do
  let w ← get
  let (network, result) := w.network.write connection .opener data
  set { w with network := network }
  match result with
  | .ok woken =>
    wakeAll woken
    return .ok ()
  | .error fault =>
    modifyPeer peer fun p => { p with connections := p.connections.filter (·.1 != target) }
    onNetwork (·.drop connection .opener)
    return .error (.transport (.io fault))

/-- Tries to write on the connection to an address, which is opened if there is none. There is no
outcome while the connection cannot be opened. -/
def tryWrite (peer : Nat) (x : PeerWrite) : Sim (Option Outcome) := do
  let w ← get
  let some p := w.peers[peer]? | return some (.ok ())
  match p.connections.lookup x.target with
  | some connection => return some (← writeAsPeer peer connection x.target x.data)
  | none =>
    let (network, result, woken) := w.network.connect p.member.host x.target (.peerDeeds peer)
    set { w with network := network }
    wakeAll woken
    match result with
    | .hangs => return none
    | .failed fault => return some (.error (.transport (.io fault)))
    | .connected connection =>
      modifyPeer peer fun p => { p with connections := p.connections ++ [(x.target, connection)] }
      return some (← writeAsPeer peer connection x.target (x.greeting ++ x.data))

def hangUp (peer : Nat) : Sim Unit := do
  let some p := (← get).peers[peer]? | return
  modifyPeer peer fun p => { p with connections := [] }
  for (_, connection) in p.connections do onNetwork (·.drop connection .opener)

def doEach (peer : Nat) : List PeerDeed → Sim Unit
  | [] => return
  | .hangUp call :: rest => do
    hangUp peer
    record call (.ok ())
    doEach peer rest
  | .write x :: rest => do
    match ← tryWrite peer x, x.call with
    | none, _ => modifyPeer peer fun p => { p with waiting := .write x :: rest }
    | some outcome, some call =>
      record call outcome
      doEach peer rest
    | some _, none => doEach peer rest

/-- Does something when all before it is done. -/
def doInTurn (peer : Nat) (deed : PeerDeed) : Sim Unit := do
  let some p := (← get).peers[peer]? | return
  if p.waiting.isEmpty then doEach peer [deed]
  else modifyPeer peer fun p => { p with waiting := p.waiting ++ [deed] }

def runPeerDeeds (peer : Nat) : Sim Unit := do
  let waiting := ((← get).peers[peer]?.map (·.waiting)).getD []
  modifyPeer peer fun p => { p with waiting := [] }
  doEach peer waiting

def frameOf (version : Version) (message : Message) : List UInt8 :=
  let data := (Codec.encode version message).toOption.getD []
  (Frame.encode data).toOption.getD []

def greetingOf (self : Member) : List UInt8 := frameOf self.version (.of (.handshake self))

/-! ### Answers -/

/-- Answers a heartbeat request, if the peer is alive. -/
def answerDatagram (peer : Nat) (p : Peer) (d : Datagram) : Sim Unit := do
  match Codec.decode .current d.data with
  | .ok { payload := .heartbeatRequest request _, .. } =>
    if p.alive then
      let answer : Message := ⟨some p.member, none, .heartbeatResponse request⟩
      let data := (Codec.encode p.schema answer).toOption.getD []
      let _ ← sendAsPeer peer d.source data
  | _ => return

/-- Answers a final check on the peer's own connection to whoever asks, if the peer confirms. -/
def answerCheck (peer : Nat) (p : Peer) (asker : Member) (request : UInt64) : Sim Unit := do
  if p.confirms then
    if let some target := asker.directAddress? then
      let answer := frameOf p.member.version (.of (.finalCheckResponse request))
      doInTurn peer (.write ⟨target, greetingOf p.member, answer, none⟩)

def answerMail (peer : Nat) : Sim Unit := do
  let some p := (← get).peers[peer]? | return
  modifyPeer peer fun p => { p with mail := [] }
  for item in p.mail do
    match item with
    | .datagram d => answerDatagram peer p d
    | .check asker request => answerCheck peer p asker request

def runPeerSocket (peer : Nat) : Sim Unit := do
  let w ← get
  let some p := w.peers[peer]? | return
  if let some socket := p.socket then
    if let some s := w.network.sockets[socket]? then
      readAsPeer peer socket (s.queue.length + (w.network.host p.member.host).failures.receive + 1)
  answerMail peer

/-! ### Connections that a peer accepts -/

def acceptAsPeer (peer listener : Nat) : Nat → Sim Unit
  | 0 => return
  | count + 1 => do
    let w ← get
    let (network, accepted) := w.network.accept listener (.peerListener peer listener)
    set { w with network := network }
    match accepted with
    | .nothing => return
    | .failed => acceptAsPeer peer listener count
    | .connection c =>
      let index := w.streams.size
      modify fun w => { w with
        streams := w.streams.push { peer := peer, connection := c } }
      modifyPeer peer fun p => { p with accepted := p.accepted ++ [index] }
      wake (.peerStream index)
      acceptAsPeer peer listener count

/-- A peer looks at the listener that it has now. -/
def runPeerListener (peer listener : Nat) : Sim Unit := do
  let w ← get
  let some p := w.peers[peer]? | return
  if p.listener != some listener then return
  let some l := w.network.listeners[listener]? | return
  acceptAsPeer peer listener (l.backlog.length + (w.network.host l.host).failures.accept + 1)

def takeFrame (s : PeerStream) (source : Ip) (frame : List UInt8) : Sim PeerStream := do
  modify fun w => { w with peerFrames := w.peerFrames ++ [⟨s.peer, source, some frame⟩] }
  match Codec.decode .current frame, s.identity with
  | .ok { payload := .handshake identity, .. }, _ =>
    modify fun w => { w with greetings := (source, identity) :: w.greetings }
    return { s with identity := some identity }
  | .ok { payload := .finalCheckRequest request _, .. }, some asker =>
    modifyPeer s.peer fun p => { p with mail := p.mail ++ [.check asker request] }
    wake (.peerSocket s.peer)
    return s
  | _, _ => return s

/-- Reads a connection that a peer accepted to the end of what has arrived, in at most `count` looks. -/
def runPeerStream (index : Nat) : Nat → Sim Unit
  | 0 => return
  | count + 1 => do
    let w ← get
    let some s := w.streams[index]? | return
    if s.finished then return
    let some c := w.network.connections[s.connection]? | return
    let (network, bytes, ended) := w.network.read s.connection .acceptor (.peerStream index)
    set { w with network := network }
    let cut := Frame.cut (s.buffer ++ bytes)
    let mut s := { s with buffer := cut.rest, finished := ended }
    for frame in cut.frames do s ← takeFrame s c.opener.host frame
    let last := s
    modify fun w => { w with streams := w.streams.setIfInBounds index last }
    if ended then
      modify fun w => { w with peerFrames := w.peerFrames ++ [⟨s.peer, c.opener.host, none⟩] }
    else if !bytes.isEmpty then runPeerStream index count

def deafenPeer (peer : Nat) : Sim Unit := do
  let some p := (← get).peers[peer]? | return
  modifyPeer peer fun p => { p with listener := none, accepted := [] }
  if let some l := p.listener then onNetwork (·.closeListener l)
  for index in p.accepted do
    if let some s := (← get).streams[index]? then
      modify fun w => { w with streams := w.streams.setIfInBounds index { s with finished := true } }
      if !s.finished then onNetwork (·.drop s.connection .acceptor)

def listenAsPeer (peer : Nat) : Sim (Except IoFault Unit) := do
  let w ← get
  let some p := w.peers[peer]? | return .ok ()
  let some address := p.member.directAddress? | return .ok ()
  let (network, result) := w.network.listen p.member.host address
  set { w with network := network }
  match result with
  | .error fault => return .error fault
  | .ok listener =>
    modifyPeer peer fun p => { p with listener := some listener }
    wake (.peerListener peer listener)
    return .ok ()

def startPeer (member : Member) : Sim (Except IoFault Unit) := do
  let w ← get
  let peer := w.peers.size
  let (network, result) := w.network.bindSocket member.host member.membershipAddress
  set { w with network := network, peers := w.peers.push { member := member } }
  match result with
  | .error fault => return .error fault
  | .ok socket =>
    modifyPeer peer fun p => { p with socket := some socket }
    wake (.peerSocket peer)
    listenAsPeer peer

/-- Peers come to life one after the other, if each finds its endpoints free. -/
def startPeers : List Member → Sim (Except IoFault Unit)
  | [] => return .ok ()
  | m :: rest => do
    match ← startPeer m with
    | .error fault => return .error fault
    | .ok _ => startPeers rest

end Cohort.Simulation
