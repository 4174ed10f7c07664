import Cohort.Simulation.Datagrams
import Cohort.Simulation.Streams

/-!
What work waits for: how each effect begins, and when it is over. An effect is looked at when its
work first waits for it and whenever the work is woken; it gives its answer, or goes on.
-/

namespace Cohort.Simulation

open Net (Endpoint Ip)

/-- What a look at an effect gives: how far it is, or the answer. -/
abbrev Look (α : Type) := Wait × Option α

def answered {α : Type} (a : α) : Look α := (.other, some a)

def pending {α : Type} (wait : Wait) : Look α := (wait, none)

/-! ### Datagrams -/

/-- Whoever waits for a handshake, since the given wait began, looks at the session. -/
def lookSession (index : Nat) (t : Thread) (c : SecureTransport.Caller) (since : Nat)
    (data : List UInt8) : Sim (Look (Except TransportFault Unit)) := do
  let some s ← station? t.node | return answered (.ok ())
  let some secure := s.secure | return answered (.ok ())
  let now ← clock
  let (secure, effects, c, progress) := secure.proceed now c
  modifySecure t.node secure
  carryOut t.node effects
  match progress with
  | .failed fault => return answered (.error fault)
  | .established =>
    match secure.sealBody .standard now c data with
    | (_, .error fault) => return answered (.error fault)
    | (secure, .ok record) =>
      modifySecure t.node secure
      return answered (← sendPlain t.node (.endpoint c.peer) record)
  | .waiting => return pending (.handshake c since)
  | .hello record =>
    if c.attempts > 1 then tally t.node (·.count .handshakeRetransmits)
    match ← sendPlain t.node (.endpoint c.peer) record with
    | .error fault => return answered (.error fault)
    | .ok _ =>
      wakeAt c.nextHello (taskOf index t)
      let since := (← get).waits
      modify fun w => { w with waits := w.waits + 1 }
      return pending (.handshake c since)

/-- Begins to send through a session. -/
def callSession (index : Nat) (t : Thread) (target : Endpoint) (data : List UInt8) :
    Sim (Look (Except TransportFault Unit)) := do
  let some n ← node? t.node | return answered (.ok ())
  let some s := n.station | return answered (.ok ())
  let some secure := s.secure | return answered (.ok ())
  let limit := SecureTransport.maxPayload s.maxDatagram
  if data.length > limit then return answered (.error (.payloadTooLarge data.length limit))
  let known := (secure.session? target .client).isSome
  let fresh ← if known then pure [] else draw n.host
  let (secure, caller) := secure.call (← clock) fresh target
  modifySecure t.node secure
  if !known then wake (.session t.node caller.number)
  lookSession index t caller 0 data

def lookDatagram (index : Nat) (t : Thread) (target : Destination) (data : List UInt8) (wait : Wait) :
    Sim (Look (Except TransportFault Unit)) := do
  match wait with
  | .handshake c since => lookSession index t c since data
  | _ =>
    match (← station? t.node).bind (·.secure) with
    | none => return answered (← sendPlain t.node target data)
    | some secure =>
      if secure.closed then return answered (.error (.io .shutDown))
      else match target with
        | .multicast => return answered (.error .multicastDisabled)
        | .endpoint e => callSession index t e data

/-! ### The direct channel -/

/-- Begins one delivery. -/
def beginDelivery (index : Nat) (t : Thread) (d : Delivery) (slot : Nat) : Sim Slot := do
  match Messenger.resolve d with
  | .error e => return .filled none (.error e)
  | .ok a =>
    match ← enqueue t.node a ⟨index, slot⟩ with
    | .error e => return .filled none (.error e)
    | .ok number => return .open number

def beginDeliveries (index : Nat) (t : Thread) : List Delivery → Nat → Sim (List Slot)
  | [], _ => return []
  | d :: rest, slot => do
    let first ← beginDelivery index t d slot
    return first :: (← beginDeliveries index t rest (slot + 1))

/-- The outcomes, once all are there. -/
def outcomes? : List Slot → Option (List Outcome)
  | [] => some []
  | .open _ :: _ => none
  | .filled _ outcome :: rest => (outcomes? rest).map (outcome :: ·)

/-- A connection on which a delivery failed is not used again. -/
def discardFailed (node : Nat) (slots : List Slot) : Sim Unit := do
  for s in slots do
    match s with
    | .filled (some number) (.error _) =>
      if let some w := (← get).writers[number]? then
        modifyMessenger node (·.discard w.writer.address number)
    | _ => pure ()

def lookDeliveries (index : Nat) (t : Thread) (deliveries : List Delivery) (wait : Wait) :
    Sim (Look (List Outcome)) := do
  let slots ← match wait with
    | .slots slots _ => pure slots
    | _ => beginDeliveries index t deliveries 0
  discardFailed t.node slots
  match outcomes? slots with
  | some outcomes => return answered outcomes
  | none => return pending (.slots slots none)

/-- Begins to close connections; waits for all, but not longer than the shutdown timeout. -/
def beginClosing (index : Nat) (t : Thread) (numbers : List Nat) : Sim Wait := do
  let some n ← node? t.node | return .slots [] none
  let some m := n.messenger | return .slots [] none
  let mut slots : Array Slot := #[]
  for number in numbers do
    let asked ← requestClose number ⟨index, slots.size⟩
    slots := slots.push (if asked then .open number else .filled none (.ok ()))
  let due := (← clock) + m.shutdownTimeout.millis
  if (outcomes? slots.toList).isNone then wakeAt due (taskOf index t)
  return .slots slots.toList (some due)

def lookClosing (wait : Wait) : Sim (Look Unit) := do
  match wait with
  | .slots slots (some due) =>
    if (outcomes? slots).isSome || (← clock) ≥ due then return answered ()
    else return pending wait
  | _ => return answered ()

def lookDisconnect (index : Nat) (t : Thread) (address : Endpoint) (wait : Wait) :
    Sim (Look Unit) := do
  match wait with
  | .fresh =>
    let some n ← node? t.node | return answered ()
    let some m := n.messenger | return answered ()
    match m.link? address with
    | none => return answered ()
    | some number =>
      modifyMessenger t.node (·.removeLink address)
      lookClosing (← beginClosing index t [number])
  | wait => lookClosing wait

/-- Stops to accept connections and to read those accepted. -/
def closeListening (node : Nat) : Sim Unit := do
  let some n ← node? node | return
  if let some l := n.listener then
    modifyNode node fun n => { n with listener := none }
    onNetwork (·.closeListener l)
  for (i, index) in (← get).inbounds.toList.zipIdx do
    if i.node == node then wake (.inbound index)

/-- Closing the channel happens once; who asks again waits for the end of it. -/
def lookChannel (index : Nat) (t : Thread) (wait : Wait) : Sim (Look Unit) := do
  let some n ← node? t.node | return answered ()
  let some m := n.messenger | return answered ()
  let wait ← match wait, m.draining with
    | .fresh, .never => do
      modifyMessenger t.node (·.shut)
      closeListening t.node
      beginClosing index t (m.links.map (·.2))
    | .fresh, .underway | .other, .underway => return pending .other
    | .fresh, .finished | .other, _ => return answered ()
    | wait, _ => pure wait
  let (wait, finished) ← lookClosing wait
  if finished.isSome then
    modifyMessenger t.node fun m => { m with draining := .finished }
    wakeWaiting t.node fun
      | (.closeChannel, .other) => true
      | _ => false
  return (wait, finished)

/-! ### Within the member -/

/-- The turn to change the view goes from one to the next in the order in which they asked. -/
def lookTurn (index : Nat) (t : Thread) (wait : Wait) : Sim (Look Unit) := do
  let some n ← node? t.node | return answered ()
  match n.changing, wait with
  | none, _ =>
    modifyNode t.node fun n => { n with changing := some index }
    return answered ()
  | some holder, .fresh =>
    if holder == index then return answered ()
    modifyNode t.node fun n => { n with changers := n.changers ++ [index] }
    return pending .other
  | some holder, wait =>
    if holder == index then return answered () else return pending wait

/-- Gives the turn to whoever asked first. -/
def passTurn (node : Nat) : Sim Unit := do
  let some n ← node? node | return
  match n.changers with
  | [] => modifyNode node fun n => { n with changing := none }
  | next :: rest =>
    modifyNode node fun n => { n with changing := some next, changers := rest }
    if let some t ← thread? next then wake (taskOf next t)

def lookJoinAnswer (index : Nat) (t : Thread) (patience : Span) (wait : Wait) :
    Sim (Look JoinOutcome) := do
  let some n ← node? t.node | return answered .closed
  let some m := n.manager | return answered .closed
  let now ← clock
  let due := match wait with
    | .till due => due
    | _ => now + patience.millis
  match m.hearAnswer (now ≥ due) with
  | (m, some outcome) =>
    modifyNode t.node fun n => { n with manager := some m }
    return answered outcome
  | (_, none) =>
    wakeAt due (taskOf index t)
    return pending (.till due)

/-- The application's handler takes the message on, and is done with it after its time. -/
def lookHandler (index : Nat) (t : Thread) (message : Message) (wait : Wait) :
    Sim (Look Outcome) := do
  let now ← clock
  match wait with
  | .slots slots (some due) =>
    if now < due then return pending wait
    else return answered (((outcomes? slots).bind (·.head?)).getD (.ok ()))
  | _ =>
    let some n ← node? t.node | return answered (.ok ())
    let some h := n.handlers.route message | return answered (.ok ())
    let outcome : Outcome := match h.failure with
      | some text => .error (.other [text])
      | none => .ok ()
    modifyNode t.node fun n => { n with delivered := n.delivered ++ [message] }
    if h.slow = 0 then return answered outcome
    wakeAt (now + h.slow) (taskOf index t)
    return pending (.slots [.filled none outcome] (some (now + h.slow)))

def lookActorEnd (index : Nat) (t : Thread) (name : ActorName) (patience : Span) (wait : Wait) :
    Sim (Look Unit) := do
  let some n ← node? t.node | return answered ()
  let some m := n.manager | return answered ()
  let finished : Bool := match name with
    | .watch => m.watch.phase == .stopped
    | .pulse => m.pulse.phase == .stopped
  if finished then return answered ()
  let now ← clock
  let due := match wait with
    | .till due => due
    | _ => now + patience.millis
  if now ≥ due then return answered ()
  wakeAt due (taskOf index t)
  return pending (.till due)

def lookClosed (t : Thread) (wait : Wait) : Sim (Look Unit) := do
  match (← node? t.node).bind (·.manager) with
  | some m => if m.closing == .finished then return answered () else return pending wait
  | none => return answered ()

/-- A look at what a thread waits for. -/
def look (index : Nat) (t : Thread) (effect : Effect) (wait : Wait) : Sim (Look effect.Answer) :=
  match effect with
  | .datagram target data => lookDatagram index t (.endpoint target) data wait
  | .multicast data => lookDatagram index t .multicast data wait
  | .deliver deliveries => lookDeliveries index t deliveries wait
  | .changeTurn _ => lookTurn index t wait
  | .joinAnswer patience => lookJoinAnswer index t patience wait
  | .disconnect address => lookDisconnect index t address wait
  | .handler message => lookHandler index t message wait
  | .actorEnd name patience => lookActorEnd index t name patience wait
  | .closeChannel => lookChannel index t wait
  | .closeTransport => do
    closeTransport t.node
    return answered ()
  | .closed => lookClosed t wait

end Cohort.Simulation
