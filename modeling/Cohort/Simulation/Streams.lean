import Cohort.Simulation.World

/-!
The direct channel of nodes: connections that they open, with the messages queued on them, and how
results get back to the work that waits for them.
-/

namespace Cohort.Simulation

open Net (Endpoint Ip)

/-! ### Results -/

def settle (ticket : Ticket) (outcome : Outcome) : Sim Unit := do
  let some t ← thread? ticket.thread | return
  let fill (wait : Wait) : Wait :=
    match wait with
    | .slots slots deadline =>
      let slot : Slot := match slots[ticket.slot]? with
        | some (.open writer) => .filled (some writer) outcome
        | _ => .filled none outcome
      .slots (slots.set ticket.slot slot) deadline
    | wait => wait
  let work := match t.work with
    | .member (.waiting effect wait next) => .member (.waiting effect (fill wait) next)
    | .plain (.waiting effect wait next) => .plain (.waiting effect (fill wait) next)
    | work => work
  setThread ticket.thread { t with work := work }
  wake (taskOf ticket.thread t)

/-! ### Connections that a node opens -/

def modifyMessenger (index : Nat) (f : Messenger → Messenger) : Sim Unit :=
  modifyNode index fun n => { n with messenger := n.messenger.map f }

def modifyWriter (index : Nat) (f : NodeWriter → NodeWriter) : Sim Unit :=
  modify fun w => { w with writers := w.writers.modify index f }

def setWriter (index : Nat) (x : Writer Ticket) : Sim Unit :=
  modifyWriter index fun w => { w with writer := x }

def takesScript (address : Endpoint) : Sim Bool := do
  let w ← get
  return w.scripted.contains address && !w.spent.contains (w.now, address)

/-- Queues a message on the connection to an address, a new one if there is none. Gives the
connection's number. -/
def enqueue (index : Nat) (a : Messenger.Addressed) (ticket : Ticket) : Sim (Except ServiceError Nat) := do
  let some n ← node? index | return .error .closed
  let some m := n.messenger | return .error (.config .channelDisabled)
  match m.route a (← get).writers.size with
  | .error fault => return .error fault
  | .ok (m, number, opened) =>
    if let some writer := opened then
      let scripted ← takesScript a.address
      modify fun w => { w with
        writers := w.writers.push { node := index, writer := writer, scripted := scripted } }
      modifyMessenger index fun _ => m
    modifyWriter number fun w => { w with writer := w.writer.enqueue (.message a.message ticket) }
    wake (.writer number)
    return .ok number

def dropConnection (number : Nat) : Sim Unit := do
  let some w := (← get).writers[number]? | return
  if let some c := w.connection then
    modifyWriter number fun w => { w with connection := none }
    onNetwork (·.drop c .opener)

/-- The first message on a connection has its result. -/
def settleFirst (number : Nat) (next : Writer Ticket × Option Ticket) (outcome : Outcome) :
    Sim Unit := do
  setWriter number next.1
  if let some ticket := next.2 then settle ticket outcome

def failFirst (number : Nat) (w : NodeWriter) (fault : ServiceError) : Sim Unit := do
  dropConnection number
  settleFirst number w.writer.failed (.error fault)

/-- Closes a connection; what is queued behind that is lost. -/
def finishWriter (number : Nat) (w : NodeWriter) (ticket : Ticket) : Sim Unit := do
  if let some c := w.connection then onNetwork (·.finish c .opener)
  dropConnection number
  setWriter number w.writer.finished
  settle ticket (.ok ())
  for item in w.writer.queue.drop 1 do
    let (ticket, outcome) := w.writer.refusal item
    settle ticket outcome

/-- Tries to connect. Says whether there is a result. -/
def tryConnect (number : Nat) (w : NodeWriter) : Sim Bool := do
  let some n ← node? w.node | return false
  let some m := n.messenger | return false
  let now ← clock
  let world ← get
  let (network, result, woken) := world.network.connect n.host w.writer.address (.writer number)
  set { world with network := network }
  wakeAll woken
  match result with
  | .connected c =>
    modifyWriter number fun w =>
      { w with connection := some c, deadline := none, writer := w.writer.opened }
    return true
  | .failed fault =>
    modifyWriter number fun w => { w with deadline := none }
    failFirst number w (.transport (.io fault))
    return true
  | .hangs =>
    let due := w.deadline.getD (now + m.connectTimeout.millis)
    if now ≥ due then
      modifyWriter number fun w => { w with deadline := none }
      failFirst number w (.transport (.unreachable w.writer.address))
      return true
    else
      modifyWriter number fun w => { w with deadline := some due }
      wakeAt due (.writer number)
      return false

def writeFrame (number : Nat) (w : NodeWriter) (data : List UInt8) (counted : Bool) :
    Sim Unit := do
  if counted then tally w.node (·.count .serializations)
  match Frame.encode data, w.connection with
  | .error fault, _ => failFirst number w (.transport (.io fault))
  | .ok _, none => failFirst number w w.writer.lost
  | .ok bytes, some c =>
    let world ← get
    let (network, result) := world.network.write c .opener bytes
    set { world with network := network }
    match result with
    | .error fault => failFirst number w (.transport (.io fault))
    | .ok woken =>
      wakeAll woken
      if counted then tally w.node (·.messageSent data.length)
      settleFirst number w.writer.wrote (.ok ())

/-- One step of a connection. Says whether there was something to do. -/
def writerStep (number : Nat) (w : NodeWriter) : Sim Bool := do
  match w.writer.want with
  | .nothing => return false
  | .connect => tryConnect number w
  | .write data counted =>
    writeFrame number w data counted
    return true
  | .fail fault =>
    failFirst number w fault
    return true
  | .close ticket =>
    finishWriter number w ticket
    return true

/-- Asks a connection to close; the slot is filled when it has. -/
def requestClose (number : Nat) (ticket : Ticket) : Sim Bool := do
  let some w := (← get).writers[number]? | return false
  if w.writer.stage == .closed then return false
  modifyWriter number fun w => { w with writer := w.writer.enqueue (.close ticket) }
  wake (.writer number)
  return true

end Cohort.Simulation
