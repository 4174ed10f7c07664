import Cohort.Scenario.Steps
import Cohort.Simulation.Run

/-!
Scenarios with one member. All others are scripted: datagrams go over a fabric, and what is written on
the direct channel is kept instead of sent. Each step is settled before the next, and steps of which
the work has to wait end in later ones.
-/

namespace Cohort.Scenario.OneMember

open Simulation
open Net (Endpoint)

structure Stage where
  world : World
  members : List Member
  step : Nat := 0
  /-- The results of steps that were not carried out. -/
  failures : List (Nat × Json) := []
  /-- How many datagrams had been sent when the last report was made. -/
  sent : Nat := 0

abbrev Play := ExceptT Failure (StateM Stage)

def node : Nat := 0

def sim {α : Type} (x : Sim α) : Play α :=
  modifyGet fun stage =>
    let (a, world) := x.run stage.world
    (a, { stage with world := world })

/-- Begins work as this step. -/
def begin_ (work : Work) : Play Unit := do
  let step := (← get).step
  sim (call node step work)

def done (x : Sim Unit) : Play Unit := do
  let step := (← get).step
  sim do
    x
    record step (.ok ())

/-- The member begins to live, and from now on hears datagrams. -/
def start : Play Unit := do
  let step := (← get).step
  sim do
    modifyStation node fun s => { s with heard := true }
    if let some m := (← node? node).bind (·.manager) then
      launch node step { m with
        pulse := { m.pulse with ticker := some ⟨m.config.schedulerTick.millis, ← clock⟩ } }

def direct (look : Lookup) (j : Json) : Play Unit := do
  let m ← message look j
  let sender ← at? j "from" look
  if let some n ← sim (node? node) then
    begin_ (dispatch n { m with sender := sender <|> m.sender })

def datagram (look : Lookup) (j : Json) : Play Unit := do
  let source ← at_ j "source" fun
    | .str s => endpoint (.str s)
    | r => do return (← look r).membershipAddress
  let data ← match ← at? j "hex" bytes with
    | some data => pure data
    | none => do orCodec (Codec.encode (← atD j "version" version .current) (← message look j))
  begin_ (reaction (Manager.onDatagram source data))

def setPeer (j : Json) : Play Unit := do
  let index ← at_ j "peer" nat
  let alive ← at? j "alive" bool
  let confirms ← at? j "confirms" bool
  let cut ← at? j "cut" bool
  sim (modifyPeer index fun p => { p with
    alive := alive.getD p.alive
    confirms := confirms.getD p.confirms
    cut := cut.getD p.cut })

def setHandlers (f : Dispatcher Handler → Dispatcher Handler) : Play Unit :=
  done (modifyNode node fun n => { n with handlers := f n.handlers })

def play (j : Json) : Play Unit := do
  let look := refIn (← get).members
  match ← verb j with
  | "start" => start
  | "advance" =>
    let ms ← at_ j "ms" nat
    done (elapse ms)
  | "direct" => direct look j
  | "datagram" => datagram look j
  | "send" =>
    let target ← at_ j "to" look
    begin_ (.ofMember (Manager.send target (← message look j)))
  | "broadcast" => begin_ (.ofMember (Manager.broadcast (← message look j)))
  | "leave" => begin_ (.ofMember Manager.leave)
  | "close" => begin_ (quiet Manager.close)
  | "handler" =>
    let handler : Handler := { failure := ← at? j "fail" text }
    let kind ← applicationKind j
    setHandlers fun d => (d.register kind handler).1
  | "remove_handler" =>
    let kind ← applicationKind j
    setHandlers fun d => (d.unregister kind).1
  | "peer" =>
    setPeer j
    done (pure ())
  | _ => throw (.malformed "step")

/-! ### Reports -/

/-- Rows in the order of a text. -/
def sortRows (rows : List (String × Json)) : List Json :=
  (rows.mergeSort fun a b => a.1 ≤ b.1).map fun (target, j) => .arr [.str target, j]

def sentRow (d : FabricDatagram) : String × Json :=
  let target := match d.destination with
    | .endpoint e => e.render
    | .multicast => "multicast"
  match Codec.decode .current d.data with
  | .ok m => (target, .obj [
      ("recipient", .ofOption Report.short m.recipient),
      ("sender", .ofOption Report.short m.sender),
      ("schema", .nat (Wire.Reader.ofBigEndian ((d.data.drop 2).take 2))),
      ("len", .nat d.data.length),
      ("payload", Report.payload Report.short m.payload)])
  | .error _ => (target, .hex d.data)

/-- A message on the direct channel, or the end of a connection. -/
def writtenRow (x : Written) : String × Json :=
  (x.address.render, match x.message with
    | none => .str "disconnect"
    | some (m, lost) => .obj [
        ("kind", .str m.kind.text),
        ("recipient", .ofOption Report.short m.recipient),
        ("payload", Report.payload Report.short m.payload),
        ("failed", .bool lost)])

def viewRow (v : View) : Json := .arr [.num v.id.toInt, .ofList Report.short v.members]

def memberFields (members : List Member) (m : Manager) : List (String × Json) := [
  ("state", Report.phase m.phase),
  ("local", Report.short m.self),
  ("coordinator", .ofOption Report.short m.coordinator?),
  ("view", .ofOption viewRow m.view),
  ("health", .ofList (fun x => .ofOption (fun h : HealthState => .str h.text) (m.healthOf x)) members)]

def finishedRows (stage : Stage) : List Json :=
  let rows := stage.failures ++ stage.world.finished.map fun (step, o) => (step, outcome o)
  (rows.mergeSort fun a b => a.1 ≤ b.1).map fun (step, j) => .arr [.nat step, j]

def newlySent (stage : Stage) (n : Node) : List FabricDatagram :=
  let sent := stage.world.fabric.sent
  let own := n.station.map (·.address)
  (sent.take (sent.length - stage.sent)).reverse.filter fun d => own == some d.source

/-- The report of a step, and what is left for the next. -/
def report (stage : Stage) : Stage × Json :=
  let w := stage.world
  match w.nodes[node]? with
  | none => (stage, .null)
  | some n =>
    let events := (n.events.map (·.items)).getD []
    let fields := [
      ("finished", .arr (finishedRows stage)),
      ("now_ms", .nat w.now),
      ("datagrams", .arr (sortRows ((newlySent stage n).map sentRow))),
      ("direct", .arr (sortRows (w.written.map writtenRow))),
      ("events", .ofList (Report.event Report.short) events),
      ("delivered", .ofList (Report.message Report.short) n.delivered)]
    let n := { n with events := some {}, delivered := [] }
    ({ stage with
       step := stage.step + 1
       failures := []
       sent := w.fabric.sent.length
       world := { w with
         nodes := w.nodes.setIfInBounds node n
         written := []
         finished := [] } },
      .obj (fields ++ (n.manager.map (memberFields stage.members)).getD []))

/-! ### Runs -/

/-- Does a step and lets everything settle. -/
def perform (stage : Stage) (j : Json) : Stage :=
  let stage := { stage with world := { stage.world with spent := [] } }
  let (result, stage) := (play j).run.run stage
  let stage := match result with
    | .ok _ => stage
    | .error e => { stage with failures := stage.failures ++ [(stage.step, finish (.error e))] }
  { stage with world := (settleDown.run stage.world).2 }

def runSteps : List Json → Stage → Stage × List Json
  | [], stage => (stage, [])
  | j :: rest, stage =>
    let (stage, row) := report (perform stage j)
    let (stage, rows) := runSteps rest stage
    (stage, row :: rows)

/-- Puts the member on the fabric, with its direct channel if it has one. -/
def place (self : Member) (c : Config) (policy : LossPolicy) : Sim Unit := do
  let channel := if c.channelDisabled then none else self.directAddress?
  let messenger := channel.map fun address => ({
    address := address
    self := some self
    connectTimeout := c.finalCheckTimeout
    shutdownTimeout := c.shutdownTimeout } : Messenger)
  let node ← addNode {
    host := self.host
    messenger := messenger
    manager := some (managerOf c policy self channel 0)
    events := some {} }
  let plan : StationPlan := {
    address := self.membershipAddress, maxDatagram := Fabric.maxDatagram, heard := false }
  let _ ← joinFabric node plan

/-- Puts a scripted member on the fabric, unless nobody is to be there. Whatever its version, it
answers in the current schema. -/
def placePeer (bound : Bool) (m : Member) : Sim Unit :=
  modify fun w => { w with
    peers := w.peers.push { member := m, schema := .current }
    fabric := if bound then (w.fabric.bind m.membershipAddress).1 else w.fabric }

/-- Everybody is in place. -/
def opening (empty : World) (members : List Member) (unbound : List Nat) (multicast : Bool)
    (c : Config) (policy : LossPolicy) : World :=
  let scripted := (members.drop 1).filterMap (·.directAddress?) ++ c.locators
  let w : World := { empty with
    scripted := scripted
    network := { offline := true }
    fabric := { multicast := multicast } }
  let setUp : Sim Unit := do
    for self in members.take 1 do place self c policy
    for (m, index) in members.zipIdx do
      placePeer (index != node && !unbound.contains index) m
  (setUp.run w).2

def setPeers : List Json → Play Unit
  | [] => return
  | j :: rest => do
    setPeer j
    setPeers rest

/-- Plays a scenario in a world that is empty. -/
def run (empty : World) (j : Json) : Run Json := do
  let members ← members j
  let c ← at_ j "config" (config empty.hostName)
  let p ← if j.has "policy" then policy j else pure (.weighted c.lossThreshold)
  let unbound ← listAt j "unbound" nat
  let multicast ← atD j "multicast_fabric" bool false
  let world := opening empty members unbound multicast c p
  let stage : Stage := { world := world, members := members }
  let (result, stage) := (setPeers (← listAt j "peers" pure)).run.run stage
  let _ ← result
  let (stage, rows) := runSteps (← at_ j "steps" list) stage
  let manager := stage.world.nodes[node]?.bind (·.manager)
  return .obj [("steps", .arr rows),
    ("stats", .ofOption (fun m : Manager => Report.statistics m.statistics) manager)]

end Cohort.Scenario.OneMember
