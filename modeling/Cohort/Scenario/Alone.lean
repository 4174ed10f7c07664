import Cohort.Scenario.Steps
import Cohort.Simulation.Run

/-!
Scenarios with a member that is alone on a fabric: it founds a group, sends to itself and to nobody,
and leaves.
-/

namespace Cohort.Scenario.Alone

open Simulation
open Net (Endpoint)

/-- The number of the join; other calls have their own. -/
def joining : Nat := 0

def join (c : Config) (address : Endpoint) : Sim Unit := do
  let node ← addNode { host := address.ip }
  let plan : StationPlan := {
    address := address, maxDatagram := Fabric.maxDatagram, security := c.security }
  match ← joinFabric node plan with
  | .error fault => record joining (.error (.ofTransport fault))
  | .ok s =>
    if let .error e ← assemble node joining c (.weighted c.lossThreshold) s.address then
      record joining (.error e)

/-- Does something with the member, and waits for the end of it. -/
def await (number : Nat) (work : Work) : Sim Outcome := do
  call 0 number work
  settleDown
  return ((← get).finished.lookup number).getD (.ok ())

def memberIn (w : World) : Option Manager := w.nodes[0]?.bind (·.manager)

def groupFields (m : Manager) : List (String × Json) := [
  ("view_id", .ofOption (fun v : View => .num v.id.toInt) m.view),
  ("size", .ofOption (fun v : View => .nat v.size) m.view),
  ("local_view_id", .num m.self.viewId.toInt),
  ("dport", .nat m.self.directPort.toNat),
  ("coordinates", .bool ((m.coordinator?.map (·.same m.self)).getD false)),
  ("health", .ofOption (fun h : HealthState => .str h.text) (m.healthOf m.self))]

/-- What becomes of the member's messages, and of the member. -/
def life (message : Message) : Sim (List (String × Json)) := do
  let some m := memberIn (← get) | return []
  let toSelf ← await 1 (.ofMember (Manager.send m.self message))
  let broadcast ← await 2 (.ofMember (Manager.broadcast message))
  let leave ← await 3 (.ofMember Manager.leave)
  let close ← await 4 (quiet Manager.close)
  let after ← await 5 (.ofMember (Manager.broadcast message))
  let some last := memberIn (← get) | return []
  return groupFields m ++ [
    ("to_self", outcome toSelf), ("broadcast", outcome broadcast), ("leave", outcome leave),
    ("close", outcome close), ("after", outcome after),
    ("closed", .bool (last.phase == .closed)), ("stats", Report.statistics last.statistics)]

/-- Lives a member's life in a world that is empty. -/
def run (empty : World) (j : Json) : Run Json := do
  let c ← at_ j "config" (config empty.hostName)
  let address ← at_ j "addr" endpoint
  let ms ← atD j "advance_ms" nat 0
  let setUp : Sim Unit := do
    join c address
    settleDown
    elapse ms
  let w := (setUp.run empty).2
  match w.finished.lookup joining with
  | some (.error e) => throw (.refused e)
  | _ =>
    let m ← orCodec (Message.application (some (← at_ j "kind" word16)) [])
    return .obj ((life m).run w).1

end Cohort.Scenario.Alone
