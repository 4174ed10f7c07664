import Cohort.Scenario.Steps
import Cohort.Simulation.Run

/-!
Scenarios of encrypted transports on one fabric. A send is waited for, and only that and the steps
that say so take time.
-/

namespace Cohort.Scenario.Sessions

open Simulation
open Net (Endpoint)

structure Bench where
  world : World
  nextCall : Nat := 0
  /-- How many datagrams had been sent at the last report. -/
  sent : Nat := 0

/-- What a step does. -/
abbrev Play := ExceptT Failure (StateM Bench)

def sim {α : Type} (x : Sim α) : Play α :=
  modifyGet fun b =>
    let (a, world) := x.run b.world
    (a, { b with world := world })

def nodeAt (j : Json) (key : String) : Play (Nat × Node) := do
  let index ← at_ j key nat
  match (← get).world.nodes[index]? with
  | some n => return (index, n)
  | none => throw (.malformed "node")

def addressOf (n : Node) : Endpoint := (n.station.map (·.address)).getD { ip := n.host, port := 0 }

/-- Begins to send, everything at once. -/
def beginSends (node : Nat) (target : Destination) (payloads : List (List UInt8)) :
    Play (List Nat) := do
  let first := (← get).nextCall
  modify fun b => { b with nextCall := b.nextCall + payloads.length }
  let numbered := payloads.zipIdx first
  for (data, number) in numbered do
    sim (callAwaited node number (.ofBare (transmission target data)))
  return numbered.map (·.2)

/-- The outcomes of sends that are over. -/
def outcomes (calls : List Nat) : Play (List Outcome) := do
  let finished := (← get).world.finished
  return calls.map fun number => (finished.lookup number).getD (.ok ())

def sendAndWait (node : Nat) (target : Destination) (data : List UInt8) : Play Json := do
  let calls ← beginSends node target [data]
  sim (awaitCalls calls)
  return outcome ((← outcomes calls).headD (.ok ()))

/-- The latest record of a type that was sent between two nodes. -/
def latestRecord (w : World) (source target : Endpoint) (type : UInt8) : Option (List UInt8) :=
  let fits (d : FabricDatagram) : Bool :=
    d.source == source && d.destination == .endpoint target && d.data.head? == some type
  (w.fabric.sent.find? fits).map (·.data)

def step (j : Json) : Play Json := do
  match ← verb j with
  | "send" =>
    let (source, _) ← nodeAt j "from"
    let (_, target) ← nodeAt j "to"
    sendAndWait source (.endpoint (addressOf target)) (← content j)
  | "send_addr" =>
    let (source, _) ← nodeAt j "from"
    sendAndWait source (.endpoint (← at_ j "addr" endpoint)) (← content j)
  | "multicast" =>
    let (source, _) ← nodeAt j "from"
    sendAndWait source .multicast (← content j)
  | "send_many" =>
    let (source, _) ← nodeAt j "from"
    let (_, target) ← nodeAt j "to"
    let payloads ← at_ j "many" (listOf bytes)
    let calls ← beginSends source (.endpoint (addressOf target)) payloads
    sim (awaitCalls calls)
    return .ofList outcome (← outcomes calls)
  | "raw" =>
    let (source, _) ← nodeAt j "from"
    let (_, target) ← nodeAt j "to"
    let data ← content j
    return transportOutcome (← sim (sendPlain source (.endpoint (addressOf target)) data))
  | "inject" =>
    let (_, source) ← nodeAt j "from"
    let (target, _) ← nodeAt j "to"
    sim (feed target ⟨addressOf source, ← content j⟩)
    return ok
  | "send_inject" =>
    let (source, _) ← nodeAt j "from"
    let (_, target) ← nodeAt j "to"
    let calls ← beginSends source (.endpoint (addressOf target)) [← content j]
    let pause ← at_ j "after_ms" nat
    if pause ≠ 0 then sim (elapse pause)
    sim (feed source ⟨addressOf target, ← at_ j "inject" bytes⟩)
    sim (awaitCalls calls)
    return outcome ((← outcomes calls).headD (.ok ()))
  | "replay" =>
    let (_, source) ← nodeAt j "from"
    let (target, n) ← nodeAt j "to"
    let found := latestRecord (← get).world (addressOf source) (addressOf n) (← at_ j "type" byte)
    match found with
    | none => return .null
    | some record =>
      sim (feed target ⟨addressOf source, ← altered j record⟩)
      return ok
  | "reach" =>
    let (_, n) ← nodeAt j "node"
    let up ← at_ j "up" bool
    sim (modify fun w => { w with fabric := w.fabric.setReachable (addressOf n) up })
    return ok
  | "advance" =>
    sim (elapse (← at_ j "ms" nat))
    return ok
  | "close_session" =>
    let (index, _) ← nodeAt j "on"
    let (_, peer) ← nodeAt j "peer"
    sim (closeSession index (addressOf peer))
    return ok
  | "forget" =>
    let (index, _) ← nodeAt j "on"
    let (_, peer) ← nodeAt j "peer"
    let role ← need "role" (Role.ofByte? (← at_ j "role" byte))
    sim (forgetSession index (addressOf peer) role)
    return ok
  | "shutdown" =>
    let (index, _) ← nodeAt j "on"
    sim (closeTransport index)
    return ok
  | "limits" =>
    let (_, n) ← nodeAt j "on"
    let limit := (n.station.map (·.maxDatagram)).getD 0
    return .obj [("addr", Report.endpoint (addressOf n)),
      ("max", .nat (SecureTransport.maxPayload limit))]
  | _ => throw (.malformed "step")

/-! ### Reports -/

/-- The most bytes that are shown in full of what a node received. -/
def shownReceived : Nat := 64

/-- A node by its index, another endpoint by its text. -/
def place (ns : List Node) (e : Endpoint) : Json :=
  match ns.findIdx? (addressOf · == e) with
  | some index => .nat index
  | none => Report.endpoint e

/-- The text by which rows are sorted. -/
def placeText : Json → String
  | .num n => toString n
  | .str s => "\"" ++ s ++ "\""
  | _ => ""

def wireRows (ns : List Node) (sent : List FabricDatagram) : List Json :=
  let target (d : FabricDatagram) : Json := match d.destination with
    | .endpoint e => place ns e
    | .multicast => .str "multicast"
  let rows := sent.map fun d => (place ns d.source, target d, d.data)
  let before (a b : Json × Json × List UInt8) : Bool :=
    placeText a.1 < placeText b.1
      || (placeText a.1 == placeText b.1 && placeText a.2.1 ≤ placeText b.2.1)
  (rows.mergeSort before).map fun (source, target, data) =>
    .arr [source, target, .ofOption (fun b : UInt8 => .nat b.toNat) data.head?, .nat data.length]

def receptionRow (ns : List Node) (raw : Bool) : Reception → Json
  | .datagram d =>
    if raw then .arr [place ns d.source,
      .ofOption (fun b : UInt8 => .nat b.toNat) d.data.head?, .nat d.data.length]
    else .arr [place ns d.source, shown shownReceived d.data]
  | .lagged missed => .obj [("lagged", .nat missed)]

/-- Which sessions there are with an address: of the client's role, and of the server's. -/
def sessionMarks (t : SecureTransport Gcm.Key) (e : Endpoint) : String :=
  (if (t.session? e .client).isSome then "c" else "-")
    ++ (if (t.session? e .server).isSome then "s" else "-")

def nodeRow (ns : List Node) (n : Node) : Json :=
  match n.station.bind (·.secure) with
  | none => .obj [("received", .ofList (receptionRow ns true) n.received)]
  | some t => .obj [
      ("received", .ofList (receptionRow ns false) n.received),
      ("sessions", .ofList (fun m => .str (sessionMarks t (addressOf m))) ns),
      ("has_session", .ofList (fun m => .bool (t.hasSession (addressOf m))) ns),
      ("retransmits", .nat (n.statistics.get .handshakeRetransmits).toNat)]

def report (result : Json) (b : Bench) : Bench × Json :=
  let w := b.world
  let ns := w.nodes.toList
  let sent := (w.fabric.sent.take (w.fabric.sent.length - b.sent)).reverse
  ({ b with
     sent := w.fabric.sent.length
     world := { w with nodes := w.nodes.map fun n => { n with received := [] }, finished := [] } },
    .obj [("result", result), ("now_ms", .nat w.now), ("wire", .arr (wireRows ns sent)),
      ("nodes", .ofList (nodeRow ns) ns)])

/-- Does a step and lets everything settle. -/
def perform (b : Bench) (j : Json) : Bench × Json :=
  let (result, b) := (step j).run.run b
  let result := match result with
    | .ok j => j
    | .error e => finish (.error e)
  report result { b with world := (settleDown.run b.world).2 }

def runSteps : List Json → Bench → List Json
  | [], _ => []
  | j :: rest, b =>
    let (b, row) := perform b j
    row :: runSteps rest b

/-- Puts a node on the fabric. -/
def addStation (j : Json) : Play Unit := do
  let address ← at_ j "addr" endpoint
  let raw ← atD j "raw" bool false
  let s ← if raw then pure none else some <$> security j
  sim do
    let node ← addNode { host := address.ip, kind := .transport }
    let plan : StationPlan := {
      address := address, maxDatagram := Fabric.maxDatagram, security := s }
    let _ ← joinFabric node plan

def addStations : List Json → Play Unit
  | [] => return
  | j :: rest => do
    addStation j
    addStations rest

def run (j : Json) : Run Json := do
  let b : Bench := { world := { fabric := { multicast := true } } }
  let (result, b) := (addStations (← at_ j "nodes" list)).run.run b
  let _ ← result
  return .obj [("steps", .arr (runSteps (← at_ j "steps" list) b))]

end Cohort.Scenario.Sessions
