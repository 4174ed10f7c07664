import Cohort.Scenario.Steps
import Cohort.Simulation.Run

/-!
Scenarios on one machine that has no network, not even to itself. Its sockets can be bound, but nothing
gets from one to another: every member founds a group of its own, and reaches nobody but itself.
-/

namespace Cohort.Scenario.Offline

open Simulation
open Net (Endpoint Ip)

/-- A scenario that begins with a connection cannot go on. -/
def unconnected (j : Json) : Run Json := do
  let _ ← members j
  let _ ← at? j "peer" member
  throw (.refused (.transport (.io .networkUnreachable)))

structure Stage where
  world : World
  /-- The nodes of the members that have joined. -/
  joined : List Nat := []
  nextCall : Nat := 0

/-- What a step does. -/
abbrev Play := ExceptT Failure (StateM Stage)

def sim {α : Type} (x : Sim α) : Play α :=
  modifyGet fun stage =>
    let (a, world) := x.run stage.world
    (a, { stage with world := world })

/-- The kind of message that every member takes. -/
def handled : MessageKind := .application 7

def await (begin_ : Nat → Sim Unit) : Play Unit := do
  let number := (← get).nextCall
  modify fun stage => { stage with nextCall := number + 1 }
  sim (begin_ number)
  sim (awaitCalls [number])
  match (← get).world.finished.lookup number with
  | some (.error e) => throw (.refused e)
  | _ => return

def withMember (node : Nat) (p : Act Outcome) : Play Unit :=
  await fun number => call node number (.ofMember p)

/-- The node and identity of a member that has joined. -/
def joinedAt (j : Json) (key : String) : Play (Nat × Member) := do
  let stage ← get
  let node ← need "member" stage.joined[← at_ j key nat]?
  let m ← need "member" (stage.world.nodes[node]?.bind (·.manager))
  return (node, m.self)

/-- Where the members are that a joiner asks. -/
def locatorsOf (stage : Stage) (j : Json) : Run (List Endpoint) := do
  let indexes ← listAt j "through" nat
  return indexes.filterMap fun i => do
    let node ← stage.joined[i]?
    let m ← stage.world.nodes[node]?.bind (·.manager)
    m.self.directAddress?

def join (j : Json) : Play Unit := do
  let request ← at_ j "config" configRequest
  let locators ← locatorsOf (← get) j
  let request := { request with locators := request.locators ++ locators }
  let c ← orConfig (request.validate (← get).world.hostName)
  let handlers : Dispatcher Handler := (({} : Dispatcher Handler).register handled {}).1
  let node ← sim (addNode { host := c.bind, handlers := handlers })
  await fun number => startMember node number c (.weighted c.lossThreshold) (planOf c)
  modify fun stage => { stage with joined := stage.joined ++ [node] }

def messageOf (j : Json) : Run Message := do
  orCodec (Message.application (some (← at_ j "kind" word16)) (← at_ j "data" bytes))

def play (j : Json) : Play Unit := do
  match ← verb j with
  | "join" => join j
  | "send" =>
    let (node, _) ← joinedAt j "from"
    let (_, target) ← joinedAt j "to"
    withMember node (Manager.send target (← messageOf j))
  | "broadcast" =>
    let (node, _) ← joinedAt j "from"
    withMember node (Manager.broadcast (← messageOf j))
  | "leave" =>
    let (node, _) ← joinedAt j "who"
    withMember node Manager.leave
  | _ => throw (.malformed "step")

/-! ### Reports -/

/-- An error by its kind alone. -/
def kindOnly : Json → Json
  | .obj fields => .obj (fields.filter (·.1 == "error"))
  | j => j

def viewRow (v : View) : Json := .obj [
  ("id", .num v.id.toInt),
  ("creator", Report.name v.creator),
  ("members", .ofList Report.name v.members),
  ("shutdown", .ofList Report.name v.shutdown),
  ("crashed", .ofList Report.name v.crashed)]

def memberRow (n : Node) (m : Manager) : Json := .obj [
  ("name", Report.name m.self),
  ("state", Report.phase m.phase),
  ("events", .ofList (Report.event Report.name) ((n.events.map (·.items)).getD [])),
  ("view", .ofOption viewRow m.view),
  ("coordinator", .ofOption Report.name m.coordinator?)]

/-- What a member was handed, each as receiver, sender and data. -/
def deliveries (n : Node) (m : Manager) : List (String × String × List UInt8) :=
  n.delivered.map fun x =>
    (m.self.name, (x.sender.map (·.name)).getD "", x.data?.getD [])

def sortRows (rows : List (String × String × List UInt8)) : List Json :=
  let shown := rows.map fun (receiver, sender, data) => (receiver, sender, Json.hexText data)
  let before (a b : String × String × String) : Bool :=
    a.1 < b.1 || (a.1 == b.1 && (a.2.1 < b.2.1 || (a.2.1 == b.2.1 && a.2.2 ≤ b.2.2)))
  (shown.mergeSort before).map fun (receiver, sender, hex) =>
    .arr [.str receiver, .str sender, .str hex]

def present (stage : Stage) : List (Node × Manager) :=
  stage.joined.filterMap fun node => do
    let n ← stage.world.nodes[node]?
    return (n, ← n.manager)

def perform (stage : Stage) (j : Json) : Stage × Json :=
  let (result, stage) := (play j).run.run stage
  let stage := { stage with world := (settleDown.run stage.world).2 }
  let result := match result with
    | .ok _ => ok
    | .error e => kindOnly (finish (.error e))
  let here := present stage
  let row := Json.obj [
    ("result", result),
    ("delivered", .arr (sortRows (here.flatMap fun (n, m) => deliveries n m))),
    ("members", .ofList (fun (n, m) => memberRow n m) here)]
  let clear (n : Node) : Node := { n with delivered := [], events := n.events.map fun _ => {} }
  ({ stage with world := { stage.world with nodes := stage.world.nodes.map clear } }, row)

def runSteps : List Json → Stage → List Json
  | [], _ => []
  | j :: rest, stage =>
    let (stage, row) := perform stage j
    row :: runSteps rest stage

/-- Plays a scenario in a world that is empty. -/
def run (empty : World) (j : Json) : Run Json := do
  let world : World := { empty with network := { offline := true } }
  return .obj [("steps", .arr (runSteps (← at_ j "steps" list) { world := world }))]

end Cohort.Scenario.Offline
