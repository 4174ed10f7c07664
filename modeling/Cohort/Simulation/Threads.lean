import Cohort.Simulation.Waiting

/-!
Work in progress. A thread runs piece by piece: each piece runs to the end, and what it gives rise
to follows it. The actors of a member, the reader of its datagrams and its accepted connections wait
for the threads that they start.
-/

namespace Cohort.Simulation

open Net (Endpoint Ip)

/-- More pieces, or turns of a loop, than one task ever has at once. -/
def pieces : Nat := 1000000

/-! ### Threads -/

def addThread (node : Nat) (origin : Origin) (work : Work) : Sim Nat := do
  let w ← get
  let t : Thread := { node := node, origin := origin, work := work }
  set { w with threads := w.threads ++ [(w.nextThread, t)], nextThread := w.nextThread + 1 }
  return w.nextThread

def quiet (p : Act Unit) : Work := .member (.ready (p.bind fun _ => .done (.ok ())))

/-- Work of a member on something that it received. -/
def reaction (p : Manager.Reaction) : Work :=
  .member (.ready (p.bind fun result => .done (result.mapError Refusal.error)))

def disconnection : List Endpoint → Procedure Unit Outcome
  | [] => return .ok ()
  | address :: rest => do
    Procedure.perform (.disconnect address)
    disconnection rest

def follow (node : Nat) (n : Notice) : Sim Unit := do
  match n with
  | .event e => modifyNode node fun n => { n with events := n.events.map (·.push e) }
  | .errand e => wake (.thread (← addThread node .errand (quiet (Manager.run e))))
  | .parting addresses =>
    wake (.thread (← addThread node .errand (.plain (.ready (disconnection addresses)))))
  | .actor name => wake (.actor node name)
  | .joinAnswer => wakeWaiting node fun
    | (.joinAnswer _, _) => true
    | _ => false
  | .turnOver => passTurn node
  | .deafened => wake (.reader node)
  | .closed => wakeWaiting node fun
    | (.closed, _) => true
    | _ => false

def settleMember (node : Nat) (m : Manager) : Sim Unit := do
  modifyNode node fun n => { n with
    manager := some { m with notices := [] }
    messenger := n.messenger.map fun c => { c with self := some m.self } }
  for n in m.notices do follow node n

/-- Runs a thread until it waits or is over, for at most `count` pieces. -/
def runPieces (index : Nat) : Nat → Sim Unit
  | 0 => return
  | count + 1 => do
    let some t ← thread? index | return
    let put (work : Work) : Sim Unit := setThread index { t with work := work }
    match t.work with
    | .finished _ => return
    | .member (.ready p) =>
      match (← node? t.node).bind (·.manager) with
      | none => put (.finished (.error .closed))
      | some m =>
        let (m, stop) := p.run { m with now := (← get).nanos }
        match stop with
        | .done outcome => put (.finished outcome)
        | .waiting effect next => put (.member (.waiting effect .fresh next))
        settleMember t.node m
        runPieces index count
    | .member (.waiting effect wait next) =>
      match ← look index t effect wait with
      | (wait, none) => put (.member (.waiting effect wait next))
      | (_, some answer) =>
        put (.member (.ready (next answer)))
        runPieces index count
    | .plain (.ready p) =>
      match (p.run ()).2 with
      | .done outcome => put (.finished outcome)
      | .waiting effect next =>
        put (.plain (.waiting effect .fresh next))
        runPieces index count
    | .plain (.waiting effect wait next) =>
      match ← look index t effect wait with
      | (wait, none) => put (.plain (.waiting effect wait next))
      | (_, some answer) =>
        put (.plain (.ready (next answer)))
        runPieces index count

def worksInMember (node : Nat) (t : Nat × Thread) : Bool :=
  t.2.node == node && match t.2.work with
    | .member _ => true
    | _ => false

def hasProgram (n : Node) : Bool := (n.demo.map (!·.stopped)).getD false

/-- A dropped node goes when nothing works in it and no program runs on it. Its messenger does not: it
goes on to accept connections. -/
def reap (node : Nat) : Sim Unit := do
  let w ← get
  let some n := w.nodes[node]? | return
  if n.dropped && !hasProgram n && !w.threads.any (worksInMember node) then
    modifyNode node fun n => { n with manager := none }
    abandonStation node

def proceed (index : Nat) : Sim (Option Outcome) := do
  runPieces index pieces
  let some t ← thread? index | return some (.ok ())
  match t.work with
  | .finished outcome =>
    removeThread index
    reap t.node
    return some outcome
  | _ => return none

def record (number : Nat) (outcome : Outcome) : Sim Unit :=
  modify fun w => { w with finished := w.finished ++ [(number, outcome)] }

/-- An attempt to get into a group is over. A demonstration program goes on after it. -/
def settleJoin (node number : Nat) (outcome : Outcome) : Sim Unit := do
  let some n ← node? node | return
  let now ← clock
  match outcome with
  | .error e =>
    record number (.error (if n.demo.isSome then e.within "failed to join the group" else e))
  | .ok _ =>
    modifyNode node fun n => { n with
      joined := true
      events := some (n.events.getD {})
      demo := n.demo.map fun d => { d with nextPing := now } }
    if n.demo.isSome then wake (.demo node) else record number outcome

def runThread (index : Nat) : Sim Unit := do
  let some t ← thread? index | return
  match ← proceed index, t.origin with
  | some outcome, .call number | some outcome, .awaited number => record number outcome
  | some outcome, .joining number => settleJoin t.node number outcome
  | _, _ => return

def call (node : Nat) (number : Nat) (work : Work) : Sim Unit := do
  runThread (← addThread node (.call number) work)

def callAwaited (node : Nat) (number : Nat) (work : Work) : Sim Unit := do
  runThread (← addThread node (.awaited number) work)

/-! ### Actors -/

/-- The watch hands events to the detector until it waits or has nothing to do. -/
def runWatch (node : Nat) : Nat → Sim Unit
  | 0 => return
  | count + 1 => do
    let some n ← node? node | return
    let set (f : Manager → Manager) : Sim Unit :=
      modifyNode node fun n => { n with manager := n.manager.map f }
    let finish : Sim Unit := set fun m => { m with watch := m.watch.finish }
    match n.watchThread, n.manager with
    | _, none => return
    | some thread, _ =>
      if (← proceed thread).isSome then
        modifyNode node fun n => { n with watchThread := none }
        finish
        runWatch node count
    | none, some m =>
      let (watch, turn) := m.watch.turn (← clock)
      set fun m => { m with watch := watch }
      match turn with
      | some (.command event) =>
        let thread ← addThread node .watch (quiet (Manager.onDetectorEvent event))
        modifyNode node fun n => { n with watchThread := some thread }
        runWatch node count
      | some .tick =>
        finish
        runWatch node count
      | none =>
        if watch.phase == .stopped then wakeWaiting node fun
          | (.actorEnd .watch _, _) => true
          | _ => false

def runPulse (node : Nat) : Nat → Sim Unit
  | 0 => return
  | count + 1 => do
    let some n ← node? node | return
    let some m := n.manager | return
    let w ← get
    let (pulse, turn) := m.pulse.turn w.now
    match turn with
    | some _ =>
      settleMember node { m with pulse := pulse.finish, now := w.nanos }.pass
      runPulse node count
    | none =>
      modifyNode node fun n => { n with manager := some { m with pulse := pulse } }
      if pulse.phase == .stopped then wakeWaiting node fun
        | (.actorEnd .pulse _, _) => true
        | _ => false
      else match pulse.nextTick? with
        | some due => wakeAt due (.actor node .pulse)
        | none => return

def runActor (node : Nat) (name : ActorName) : Sim Unit :=
  match name with
  | .watch => runWatch node pieces
  | .pulse => runPulse node pieces

/-! ### Reading datagrams -/

/-- The next entry of what a transport delivers, taken from it. -/
def nextDelivered (node : Nat) (s : Station) : Sim (Option (Ring.Entry Datagram)) := do
  match s.secure with
  | some _ =>
    match s.opened.next? with
    | none => return none
    | some (entry, rest) =>
      modifyStation node fun s => { s with opened := rest }
      return some entry
  | none =>
    match s.arrived.next? with
    | none => return none
    | some (entry, rest) =>
      modifyStation node fun s => { s with arrived := rest }
      return some entry

/-- Reads what a transport delivers: a member acts on it, another node keeps it. -/
def runReader (node : Nat) : Nat → Sim Unit
  | 0 => return
  | count + 1 => do
    let some n ← node? node | return
    let some s := n.station | return
    if !s.heard then return
    match n.readerThread with
    | some thread =>
      if (← proceed thread).isSome then
        modifyNode node fun n => { n with readerThread := none }
        runReader node count
    | none =>
      match ← nextDelivered node s, n.manager with
      | none, some m => if !m.listening then modifyStation node fun s => { s with heard := false }
      | none, none => return
      | some (.lagged missed), m =>
        if m.isNone then
          modifyNode node fun n => { n with received := n.received ++ [.lagged missed] }
        runReader node count
      | some (.item d), none =>
        modifyNode node fun n => { n with received := n.received ++ [.datagram d] }
        runReader node count
      | some (.item d), some _ =>
        let thread ← addThread node .listener (reaction (Manager.onDatagram d.source d.data))
        modifyNode node fun n => { n with readerThread := some thread }
        runReader node count

/-! ### Accepted connections -/

def acceptorRest : Nat := 100

def runAcceptor (node : Nat) : Nat → Sim Unit
  | 0 => return
  | count + 1 => do
    let some n ← node? node | return
    let some l := n.listener | return
    let now ← clock
    match n.acceptorPause with
    | some due =>
      if now < due then wakeAt due (.acceptor node)
      else
        modifyNode node fun n => { n with acceptorPause := none }
        runAcceptor node count
    | none =>
      let w ← get
      let (network, accepted) := w.network.accept l (.acceptor node)
      set { w with network := network }
      match accepted with
      | .nothing => return
      | .failed =>
        modifyNode node fun n => { n with acceptorPause := some (now + acceptorRest) }
        wakeAt (now + acceptorRest) (.acceptor node)
      | .connection c =>
        let index := w.inbounds.size
        modify fun w => { w with
          inbounds := w.inbounds.push { node := node, connection := c } }
        wake (.inbound index)
        runAcceptor node count

/-- The work that a message on the direct channel brings. The member itself handles the protocol's
kinds, and the application's handlers the others. -/
def dispatch (n : Node) (m : Message) : Work :=
  if n.kind = .member && Manager.isProtocolKind m.kind then
    if n.manager.isNone then .finished (.ok ()) else reaction (Manager.onDirect m)
  else .plain (.ready (Procedure.perform (.handler m)))

def modifyInbound (index : Nat) (f : NodeInbound → NodeInbound) : Sim Unit :=
  modify fun w => { w with inbounds := w.inbounds.modify index f }

def runInbound (index : Nat) : Nat → Sim Unit
  | 0 => return
  | count + 1 => do
    let some c := (← get).inbounds[index]? | return
    let some n ← node? c.node | return
    if c.finished then return
    match c.thread with
    | some thread =>
      if (← proceed thread).isSome then
        modifyInbound index fun c => { c with thread := none }
        runInbound index count
    | none =>
      let (state, frame) := c.state.next?
      match frame with
      | some frame =>
        let (state, arrival) := state.take frame
        modifyInbound index fun c => { c with state := state }
        match arrival with
        | .opening => pure ()
        | .undecodable => tally c.node (·.count .deserializations)
        | .message m =>
          tally c.node fun s => (s.count .deserializations).messageReceived frame.length
          let thread ← addThread c.node (.inbound index) (dispatch n m)
          modifyInbound index fun c => { c with thread := some thread }
        runInbound index count
      | none =>
        let w ← get
        let (network, bytes, ended) := w.network.read c.connection .acceptor (.inbound index)
        set { w with network := network }
        let shut := (n.messenger.map (·.draining != .never)).getD true
        let finished := state.ended || bytes.isEmpty && (ended || shut)
        modifyInbound index fun c => { c with state := state.receive bytes, finished := finished }
        if finished then onNetwork (·.drop c.connection .acceptor)
        else if !bytes.isEmpty then runInbound index count

end Cohort.Simulation
