import Cohort.Error
import Cohort.Wire.Reader
import Cohort.Simulation.Agenda

/-!
A network of hosts, each with one address. Datagrams and connections take no time. Between hosts
that are cut datagrams are lost, and what is written to a connection can be read when the cut is
mended.

A task that finds nothing to read or nobody to accept waits for the network, and so does one that
connects across a cut. Whenever anything happens on the network all that wait become ready and look
again, in the order in which they began to wait.
-/

namespace Cohort.Simulation

open Net (Endpoint Ip)

structure Failures where
  send : Nat := 0
  receive : Nat := 0
  accept : Nat := 0
  deriving Repr

structure Host where
  ip : Ip
  nextPort : Nat := 40000
  draws : Nat := 0
  failures : Failures := {}
  deriving Repr

structure Datagram where
  source : Endpoint
  data : List UInt8
  deriving DecidableEq, Repr

/-- A datagram that was sent, whether or not it arrived anywhere. -/
structure Posted where
  source : Endpoint
  target : Endpoint
  data : List UInt8
  deriving Repr

structure Socket where
  host : Ip
  address : Endpoint
  /-- The multicast group that it joined. -/
  group : Option Ip := none
  queue : List Datagram := []
  isOpen : Bool := true
  deriving Repr

structure ConnectionEnd where
  host : Ip
  buffer : List UInt8 := []
  /-- Nothing more will be written to it. -/
  ended : Bool := false
  broken : Bool := false
  /-- This end is gone. -/
  gone : Bool := false
  deriving Repr

structure Connection where
  opener : ConnectionEnd
  acceptor : ConnectionEnd
  /-- Where the opener's end is bound. -/
  source : Endpoint
  deriving Repr

structure Listener where
  host : Ip
  address : Endpoint
  backlog : List Nat := []
  isOpen : Bool := true
  deriving Repr

structure Cut where
  a : Ip
  b : Ip
  datagramsOnly : Bool
  deriving DecidableEq, Repr

structure Network (τ : Type) where
  hosts : List Host := []
  sockets : Array Socket := #[]
  listeners : Array Listener := #[]
  connections : Array Connection := #[]
  cuts : List Cut := []
  /-- No host has a route to anywhere, not even to itself. -/
  offline : Bool := false
  /-- The tasks that wait for something to happen, the one that began first in front. -/
  waiting : List τ := []
  /-- Whether it is remembered what was sent. -/
  remembers : Bool := false
  /-- Everything that was sent, the latest first, if that is remembered. -/
  posted : List Posted := []

namespace Network

variable {τ : Type}

/-! ### Waiting -/

def await [DecidableEq τ] (n : Network τ) (task : τ) : Network τ :=
  if task ∈ n.waiting then n else { n with waiting := n.waiting ++ [task] }

/-- Something has happened, so nobody waits any longer. Says who did. -/
def stir (n : Network τ) : Network τ × List τ := ({ n with waiting := [] }, n.waiting)

/-! ### Hosts -/

def host (n : Network τ) (ip : Ip) : Host := (n.hosts.find? (·.ip == ip)).getD { ip := ip }

def setHost (n : Network τ) (h : Host) : Network τ :=
  if n.hosts.any (·.ip == h.ip) then
    { n with hosts := n.hosts.map fun x => if x.ip == h.ip then h else x }
  else { n with hosts := n.hosts ++ [h] }

def takePort (n : Network τ) (ip : Ip) : Network τ × UInt16 :=
  let h := n.host ip
  (n.setHost { h with nextPort := h.nextPort + 1 }, h.nextPort.toUInt16)

/-- The next random value of a host: its number and the host's last byte by turns. -/
def draw (n : Network τ) (ip : Ip) : Network τ × List UInt8 :=
  let h := n.host ip
  let pair := [ip.lastByte, (h.draws + 1).toUInt8]
  (n.setHost { h with draws := h.draws + 1 }, (List.replicate 16 pair).flatten)

def isCut (n : Network τ) (a b : Ip) (datagrams : Bool) : Bool :=
  n.cuts.any fun c =>
    ((c.a == a && c.b == b) || (c.a == b && c.b == a)) && (datagrams || !c.datagramsOnly)

/-- The endpoint that a process on a host gets when it asks for one. A port that the host chose is used
up even if it clashes with one that somebody asked for by number. -/
def bindAddress (n : Network τ) (ip : Ip) (address : Endpoint) (taken : List Endpoint) :
    Network τ × Except IoFault Endpoint :=
  if address.ip ≠ ip ∧ !address.ip.isUnspecified then (n, .error .addressUnavailable)
  else
    let (n, port) := if address.port = 0 then n.takePort ip else (n, address.port)
    let clash (other : Endpoint) : Bool := other.port == port &&
      (other.ip == address.ip || other.ip.isUnspecified || address.ip.isUnspecified)
    (n, if taken.any clash then .error .addressInUse else .ok { address with port := port })

/-! ### Datagrams -/

def bindSocket (n : Network τ) (ip : Ip) (address : Endpoint) : Network τ × Except IoFault Nat :=
  let taken := n.sockets.toList.filter fun s => s.isOpen && s.host == ip
  match n.bindAddress ip address (taken.map (·.address)) with
  | (n, .error fault) => (n, .error fault)
  | (n, .ok address) =>
    ({ n with sockets := n.sockets.push { host := ip, address := address } }, .ok n.sockets.size)

def joinGroup (n : Network τ) (socket : Nat) (group : Ip) : Except IoFault (Network τ) :=
  if group.isMulticast then
    .ok { n with sockets := n.sockets.modify socket fun s => { s with group := some group } }
  else .error .invalidArgument

def sourceOf (s : Socket) : Endpoint := { ip := s.host, port := s.address.port }

def targets (n : Network τ) (target : Endpoint) : List Nat :=
  let numbered := n.sockets.toList.zipIdx.filter (·.1.isOpen)
  if target.ip.isMulticast then
    (numbered.filter fun (s, _) => s.group == some target.ip && s.address.port == target.port).map (·.2)
  else
    let there := numbered.filter fun (s, _) =>
      s.host == target.ip && s.address.port == target.port
    let exact := there.filter fun (s, _) => s.address.ip == target.ip
    ((exact ++ there).head?.map (·.2)).toList

def place (n : Network τ) (d : Datagram) (sockets : List Nat) : Network τ :=
  sockets.foldl (fun n i =>
    { n with sockets := n.sockets.modify i fun s => { s with queue := s.queue ++ [d] } }) n

/-- Delivers a datagram that comes from nowhere. -/
def inject (n : Network τ) (source target : Endpoint) (data : List UInt8) : Network τ × List τ :=
  (n.place ⟨source, data⟩ (n.targets target)).stir

def maxDatagram : Nat := 65507

def send (n : Network τ) (socket : Nat) (target : Endpoint) (data : List UInt8) :
    Network τ × Except IoFault (List τ) :=
  match n.sockets[socket]? with
  | none => (n, .ok [])
  | some s =>
    let h := n.host s.host
    if h.failures.send > 0 then
      (n.setHost { h with failures := { h.failures with send := h.failures.send - 1 } },
        .error .networkUnreachable)
    else if n.offline then (n, .error .networkUnreachable)
    else if data.length > maxDatagram then (n, .error .messageTooLong)
    else
      let source := sourceOf s
      let n := if n.remembers then { n with posted := ⟨source, target, data⟩ :: n.posted } else n
      let reached := (n.targets target).filter fun i =>
        match n.sockets[i]? with
        | some t => !n.isCut s.host t.host true
        | none => false
      let (n, woken) := (n.place ⟨source, data⟩ reached).stir
      (n, .ok woken)

inductive Received where
  | datagram (d : Datagram)
  | failed
  | nothing

def receive [DecidableEq τ] (n : Network τ) (socket : Nat) (task : τ) : Network τ × Received :=
  match n.sockets[socket]? with
  | none => (n, .nothing)
  | some s =>
    let h := n.host s.host
    if h.failures.receive > 0 then
      (n.setHost { h with failures := { h.failures with receive := h.failures.receive - 1 } },
        .failed)
    else match s.queue with
      | [] => (n.await task, .nothing)
      | d :: rest =>
        ({ n with sockets := n.sockets.setIfInBounds socket { s with queue := rest } }, .datagram d)

def closeSocket (n : Network τ) (socket : Nat) : Network τ :=
  { n with sockets := n.sockets.modify socket fun s => { s with isOpen := false, queue := [] } }

/-! ### Connections -/

inductive Side where
  | opener
  | acceptor
  deriving DecidableEq, Repr

def Side.other : Side → Side
  | .opener => .acceptor
  | .acceptor => .opener

def endOf (c : Connection) : Side → ConnectionEnd
  | .opener => c.opener
  | .acceptor => c.acceptor

def mapEnd (c : Connection) (side : Side) (f : ConnectionEnd → ConnectionEnd) : Connection :=
  match side with
  | .opener => { c with opener := f c.opener }
  | .acceptor => { c with acceptor := f c.acceptor }

def modifyEnd (n : Network τ) (id : Nat) (side : Side) (f : ConnectionEnd → ConnectionEnd) :
    Network τ :=
  { n with connections := n.connections.modify id (mapEnd · side f) }

def end? (n : Network τ) (id : Nat) (side : Side) : Option ConnectionEnd :=
  n.connections[id]?.map (endOf · side)

def listen (n : Network τ) (ip : Ip) (address : Endpoint) : Network τ × Except IoFault Nat :=
  let taken := n.listeners.toList.filter fun l => l.isOpen && l.host == ip
  match n.bindAddress ip address (taken.map (·.address)) with
  | (n, .error fault) => (n, .error fault)
  | (n, .ok address) =>
    ({ n with listeners := n.listeners.push { host := ip, address := address } },
      .ok n.listeners.size)

def listener? (n : Network τ) (target : Endpoint) : Option (Listener × Nat) :=
  let there := n.listeners.toList.zipIdx.filter fun (l, _) =>
    l.isOpen && l.host == target.ip && l.address.port == target.port
  let exact := there.filter fun (l, _) => l.address.ip == target.ip
  (exact ++ there).head?

inductive Connecting where
  | connected (id : Nat)
  | failed (fault : IoFault)
  | hangs

def connect [DecidableEq τ] (n : Network τ) (ip : Ip) (target : Endpoint) (task : τ) :
    Network τ × Connecting × List τ :=
  if n.offline then (n, .failed .networkUnreachable, [])
  else if n.isCut ip target.ip false then (n.await task, .hangs, [])
  else match n.listener? target with
    | none => (n, .failed .connectionRefused, [])
    | some (l, index) =>
      let (n, port) := n.takePort ip
      let id := n.connections.size
      let connection : Connection :=
        ⟨{ host := ip }, { host := l.host }, { ip := ip, port := port }⟩
      let n := { n with
        connections := n.connections.push connection
        listeners := n.listeners.modify index fun l => { l with backlog := l.backlog ++ [id] } }
      let (n, woken) := n.stir
      (n, .connected id, woken)

inductive Accepted where
  | connection (id : Nat)
  | failed
  | nothing

def accept [DecidableEq τ] (n : Network τ) (listener : Nat) (task : τ) : Network τ × Accepted :=
  match n.listeners[listener]? with
  | none => (n, .nothing)
  | some l =>
    let h := n.host l.host
    if h.failures.accept > 0 then
      (n.setHost { h with failures := { h.failures with accept := h.failures.accept - 1 } },
        .failed)
    else match l.backlog with
      | [] => (n.await task, .nothing)
      | id :: rest =>
        ({ n with listeners := n.listeners.setIfInBounds listener { l with backlog := rest } },
          .connection id)

def isSevered (n : Network τ) (c : Connection) : Bool := n.isCut c.opener.host c.acceptor.host false

/-- Writes at one end. Across a cut this succeeds too, as long as the other end is there. -/
def write (n : Network τ) (id : Nat) (side : Side) (data : List UInt8) :
    Network τ × Except IoFault (List τ) :=
  match n.end? id side with
  | none => (n, .error .brokenPipe)
  | some e =>
    if e.broken then (n, .error .brokenPipe)
    else
      let (n, woken) :=
        (n.modifyEnd id side.other fun o => { o with buffer := o.buffer ++ data }).stir
      (n, .ok woken)

def finish (n : Network τ) (id : Nat) (side : Side) : Network τ × List τ :=
  (n.modifyEnd id side.other fun o => { o with ended := true }).stir

/-- Drops an end. The other end can no longer write, also across a cut. -/
def drop (n : Network τ) (id : Nat) (side : Side) : Network τ × List τ :=
  match n.end? id side with
  | none => (n, [])
  | some e =>
    if e.gone then (n, [])
    else
      let n := n.modifyEnd id side fun e => { e with gone := true }
      (n.modifyEnd id side.other fun o => { o with broken := true, ended := true }).stir

def dropAll (side : Side) : List Nat → Network τ → Network τ × List τ
  | [], n => (n, [])
  | id :: rest, n =>
    let (n, woken) := n.drop id side
    let (n, more) := dropAll side rest n
    (n, woken ++ more)

def closeListener (n : Network τ) (listener : Nat) : Network τ × List τ :=
  match n.listeners[listener]? with
  | none => (n, [])
  | some l =>
    let closed := { l with isOpen := false, backlog := [] }
    dropAll .acceptor l.backlog { n with listeners := n.listeners.setIfInBounds listener closed }

/-- A task takes what there is to read at an end, or waits for more. Says whether that was all there
will be. -/
def read [DecidableEq τ] (n : Network τ) (id : Nat) (side : Side) (task : τ) :
    Network τ × List UInt8 × Bool :=
  match n.connections[id]? with
  | none => (n, [], true)
  | some c =>
    let e := endOf c side
    if n.isSevered c || e.buffer.isEmpty && !e.ended then (n.await task, [], false)
    else (n.modifyEnd id side fun e => { e with buffer := [] }, e.buffer, e.ended)

def cut (n : Network τ) (cuts : List Cut) : Network τ := { n with cuts := n.cuts ++ cuts }

def heal (n : Network τ) : Network τ × List τ := { n with cuts := [] }.stir

end Network

end Cohort.Simulation
