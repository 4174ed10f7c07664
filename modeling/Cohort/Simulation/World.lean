import Cohort.Backoff
import Cohort.Channel.Inbound
import Cohort.Channel.Messenger
import Cohort.Channel.Writer
import Cohort.Dispatch
import Cohort.Membership.Application
import Cohort.Membership.Leaving
import Cohort.Membership.Reception
import Cohort.Membership.Watch
import Cohort.Simulation.Network
import Cohort.Transport.Fabric
import Cohort.Transport.Ring
import Cohort.Transport.Secure

/-!
A world of members, bare messengers and bare transports on simulated hosts, under one clock. Each of
them is a node. What runs in a node is split into tasks as a program on a real machine would split
it, and the agenda runs the tasks one after the other.
-/

namespace Cohort.Simulation

open Net (Endpoint Ip)

abbrev Outcome := Except ServiceError Unit

inductive Task where
  | socket (index : Nat)
  | pump (node : Nat)
  | session (node number : Nat)
  /-- Reads what the transport of a node delivers. -/
  | reader (node : Nat)
  | actor (node : Nat) (name : ActorName)
  | acceptor (node : Nat)
  | inbound (index : Nat)
  | writer (index : Nat)
  | thread (index : Nat)
  /-- A thread that whoever looks on waits for. -/
  | foreground (index : Nat)
  | demo (node : Nat)
  | peerSocket (peer : Nat)
  | peerDeeds (peer : Nat)
  | peerListener (peer listener : Nat)
  | peerStream (index : Nat)
  deriving DecidableEq, Repr

def Task.isForeground : Task → Bool
  | .foreground _ => true
  | _ => false

/-- Where the result of a message on the direct channel belongs. -/
structure Ticket where
  thread : Nat
  slot : Nat
  deriving DecidableEq, Repr

/-- What an application does with a message: it takes its time, and may fail. -/
structure Handler where
  failure : Option String := none
  slow : Nat := 0
  deriving DecidableEq, Repr

/-- One of several results that are waited for. -/
inductive Slot where
  | open (writer : Nat)
  | filled (writer : Option Nat) (outcome : Outcome)
  deriving Repr

inductive Wait where
  | fresh
  | handshake (caller : SecureTransport.Caller) (since : Nat)
  | slots (slots : List Slot) (deadline : Option Nat)
  | till (deadline : Nat)
  | other
  deriving Repr

inductive Progress (σ : Type) where
  | ready (p : Procedure σ Outcome)
  | waiting (effect : Effect) (wait : Wait) (next : effect.Answer → Procedure σ Outcome)

/-- Who a thread works for. -/
inductive Origin where
  | errand
  | listener
  | watch
  | inbound (index : Nat)
  | call (number : Nat)
  | awaited (number : Nat)
  | joining (number : Nat)
  | demo
  deriving DecidableEq, Repr

inductive Work where
  | member (progress : Progress Manager)
  | plain (progress : Progress Unit)
  | finished (outcome : Outcome)

structure Thread where
  node : Nat
  origin : Origin
  work : Work

inductive Link where
  | sockets (main : Nat) (group : Option Nat)
  | fabric
  deriving DecidableEq, Repr

structure Receiver where
  node : Nat
  backoff : Backoff := {}
  pausedUntil : Option Nat := none
  reading : Bool := false
  stopped : Bool := false
  deriving Repr

inductive Reception where
  | datagram (d : Datagram)
  | lagged (missed : Nat)

structure Station where
  address : Endpoint
  link : Link
  group : Option Endpoint := none
  maxDatagram : Nat
  closed : Bool := false
  arrived : Ring Datagram := {}
  secure : Option (SecureTransport Gcm.Key) := none
  opened : Ring Datagram := {}
  heard : Bool := true

inductive NodeKind where
  | failed
  | member
  | messenger
  | transport
  deriving DecidableEq, Repr

/-- The demonstration program: once its member has joined it pings the group now and then, until it is
interrupted. -/
structure Demo where
  call : Nat
  nextPing : Nat := 0
  counter : Nat := 0
  thread : Option Nat := none
  interrupted : Bool := false
  leaving : Bool := false
  stopped : Bool := false
  deriving Repr

structure Node where
  host : Ip
  kind : NodeKind := .failed
  station : Option Station := none
  received : List Reception := []
  messenger : Option Messenger := none
  listener : Option Nat := none
  acceptorPause : Option Nat := none
  handlers : Dispatcher Handler := {}
  delivered : List Message := []
  manager : Option Manager := none
  /-- The thread that works for the reader or the watch, if that waits for one. -/
  readerThread : Option Nat := none
  watchThread : Option Nat := none
  /-- Who changes the view, and who waits to. -/
  changing : Option Nat := none
  changers : List Nat := []
  events : Option (Ring View.Event) := none
  /-- The counters of a node that is no member. -/
  statistics : Statistics := {}
  demo : Option Demo := none
  /-- Whether the join is over, so that others may use the member. -/
  joined : Bool := false
  dropped : Bool := false

structure NodeWriter where
  node : Nat
  writer : Writer Ticket
  scripted : Bool := false
  /-- Whether a scripted connection had any messages. -/
  used : Bool := false
  connection : Option Nat := none
  deadline : Option Nat := none

structure NodeInbound where
  node : Nat
  connection : Nat
  state : Inbound := {}
  thread : Option Nat := none
  finished : Bool := false

structure PeerFrame where
  peer : Nat
  source : Ip
  /-- Nothing for the end of the connection. -/
  frame : Option (List UInt8)

inductive PeerMail where
  | datagram (d : Datagram)
  | check (asker : Member) (request : UInt64)
  deriving Repr

structure PeerWrite where
  target : Endpoint
  /-- What goes first on a new connection. -/
  greeting : List UInt8
  data : List UInt8
  call : Option Nat
  deriving Repr

/-- What a scripted peer does with its connections, one thing after the other. -/
inductive PeerDeed where
  | write (x : PeerWrite)
  | hangUp (call : Nat)
  deriving Repr

/-- A member whose behaviour is scripted. -/
structure Peer where
  member : Member
  schema : Version := member.version
  alive : Bool := false
  confirms : Bool := false
  /-- Messages to it on the direct channel are lost. -/
  cut : Bool := false
  socket : Option Nat := none
  listener : Option Nat := none
  connections : List (Endpoint × Nat) := []
  accepted : List Nat := []
  mail : List PeerMail := []
  /-- What it is to do; the first of it waits to be connected. -/
  waiting : List PeerDeed := []
  deriving Repr

structure PeerStream where
  peer : Nat
  connection : Nat
  buffer : List UInt8 := []
  identity : Option Member := none
  finished : Bool := false

/-- A message that went out on a scripted channel, or the end of a connection that had messages. -/
structure Written where
  address : Endpoint
  message : Option (Message × Bool)

structure World where
  hostName : String := "localhost"
  processId : UInt32 := 1
  agenda : Agenda Task := {}
  network : Network Task := {}
  fabric : Fabric := {}
  receivers : List (Nat × Receiver) := []
  nodes : Array Node := #[]
  threads : List (Nat × Thread) := []
  nextThread : Nat := 0
  writers : Array NodeWriter := #[]
  inbounds : Array NodeInbound := #[]
  peers : Array Peer := #[]
  streams : Array PeerStream := #[]
  /-- The addresses to which connections of the direct channel are scripted: what is written on them
  is kept, and does not get into the network. -/
  scripted : List Endpoint := []
  /-- Where a scripted connection ended, and when. There is no other before time goes on. -/
  spent : List (Nat × Endpoint) := []
  written : List Written := []
  peerDatagrams : List (Nat × Datagram) := []
  peerFrames : List PeerFrame := []
  /-- Who said to scripted peers that it is on a host, the latest first. -/
  greetings : List (Ip × Member) := []
  /-- The steps that are done, with their outcomes. -/
  finished : List (Nat × Outcome) := []
  identities : Nat := 0
  interfaces : List (Ip × List (List Ip)) := []
  waits : Nat := 0

abbrev Sim := StateM World

namespace World

def now (w : World) : Nat := w.agenda.now

def nanos (w : World) : Nat := w.agenda.now * 1000000

end World

def wake (task : Task) : Sim Unit := modify fun w => { w with agenda := w.agenda.wake task }

def wakeAll (tasks : List Task) : Sim Unit := modify fun w => { w with agenda := w.agenda.wakeAll tasks }

/-- Arranges for a task to run at an instant, unless that is arranged already. -/
def wakeAt (due : Nat) (task : Task) : Sim Unit :=
  modify fun w => { w with agenda := w.agenda.wakeAt due task }

/-- Arranges for a task to run at an instant, in place of any other arrangement. -/
def wakeOnlyAt (due : Nat) (task : Task) : Sim Unit :=
  modify fun w => { w with agenda := (w.agenda.disarm task).wakeAt due task }

def clock : Sim Nat := return (← get).now

def node? (index : Nat) : Sim (Option Node) := return (← get).nodes[index]?

def modifyNode (index : Nat) (f : Node → Node) : Sim Unit :=
  modify fun w => { w with nodes := w.nodes.modify index f }

def modifyStation (index : Nat) (f : Station → Station) : Sim Unit :=
  modifyNode index fun n => { n with station := n.station.map f }

def onNetwork (f : Network Task → Network Task × List Task) : Sim Unit := do
  let w ← get
  let (network, woken) := f w.network
  set { w with network := network }
  wakeAll woken

/-- Counts something at a node, with the member's counters if it has a member. -/
def tally (index : Nat) (f : Statistics → Statistics) : Sim Unit :=
  modifyNode index fun n =>
    match n.manager with
    | some m => { n with manager := some { m with statistics := f m.statistics } }
    | none => { n with statistics := f n.statistics }

def thread? (index : Nat) : Sim (Option Thread) := return (← get).threads.lookup index

def setThread (index : Nat) (t : Thread) : Sim Unit :=
  modify fun w => { w with
    threads := w.threads.map fun (i, x) => if i == index then (i, t) else (i, x) }

def removeThread (index : Nat) : Sim Unit :=
  modify fun w => { w with threads := w.threads.filter fun (i, _) => i != index }

/-- The task that a thread goes on in: its own, or that of whoever waits for it. -/
def taskOf (index : Nat) (t : Thread) : Task :=
  match t.origin with
  | .listener => .reader t.node
  | .watch => .actor t.node .watch
  | .inbound i => .inbound i
  | .demo => .demo t.node
  | .awaited _ => .foreground index
  | .errand | .call _ | .joining _ => .thread index

def Thread.waiting? (t : Thread) : Option (Effect × Wait) :=
  match t.work with
  | .member (.waiting effect wait _) => some (effect, wait)
  | .plain (.waiting effect wait _) => some (effect, wait)
  | _ => none

def wakeWaiting (node : Nat) (what : Effect × Wait → Bool) : Sim Unit := do
  for (index, t) in (← get).threads do
    if t.node == node && (t.waiting?.map what).getD false then wake (taskOf index t)

def draw (host : Ip) : Sim (List UInt8) := do
  let w ← get
  let (network, value) := w.network.draw host
  set { w with network := network }
  return value

end Cohort.Simulation
