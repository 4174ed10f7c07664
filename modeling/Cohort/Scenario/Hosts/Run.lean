import Cohort.Scenario.Hosts.Answer
import Cohort.Scenario.Hosts.Network
import Cohort.Scenario.Hosts.Nodes

/-!
How a scenario on simulated hosts runs: its members come to life, and then one step follows the
other, each settled before the next.
-/

namespace Cohort.Scenario.Hosts

open Simulation
open Net (Endpoint Ip)

def play (j : Json) : Play Unit := do
  if ← worldStep j then return
  match ← verb j with
  | "join" => join j
  | "demo" => demo j
  | "messenger" => messenger j
  | "udp" => transport none j
  | "secure" => transport (some (← security j)) j
  | "drop" =>
    sim (dropNode (← nodeIndex j))
    answer ok
  | _ => nodeStep j

def perform (stage : Stage) (j : Json) : Stage :=
  let (result, stage) := (play j).run.run stage
  let stage := match result with
    | .ok _ => stage
    | .error e => { stage with results := stage.results ++ [(stage.step, finish (.error e))] }
  { stage with world := (settleDown.run stage.world).2 }

def runSteps : List Json → Stage → Stage × List Json
  | [], stage => (stage, [])
  | j :: rest, stage =>
    let (stage, row) := report (perform stage j)
    let (stage, rows) := runSteps rest stage
    (stage, row :: rows)

def setPeers : List Json → Play Unit
  | [] => return
  | j :: rest => do
    let (index, _) ← peerOf j
    setPeer index j
    setPeers rest

def interfacesOf (j : Json) : Run (List (Ip × List (List Ip))) := do
  match j.get? "interfaces" with
  | some (.obj entries) => entries.mapM fun (host, v) => do
      return (← ip (.str host), ← listOf (listOf ip) v)
  | _ => return []

/-- The world at the beginning. What is sent in it is remembered if that is to be shown. -/
def opening (empty : World) (members : List Member) (interfaces : List (Ip × List (List Ip)))
    (wire : Bool) : Run World := do
  let (result, world) := (startPeers members).run { empty with
    interfaces := interfaces
    network := { empty.network with remembers := wire } }
  match result with
  | .error fault => throw (.refused (.transport (.io fault)))
  | .ok _ => return world

/-- Plays a scenario in a world that is empty. -/
def run (empty : World) (j : Json) : Run Json := do
  let members ← members j
  let stage : Stage := {
    world := ← opening empty members (← interfacesOf j) (← atD j "wire" bool false)
    members := members }
  let (result, stage) := (setPeers (← listAt j "peers" pure)).run.run stage
  let _ ← result
  let stage := { stage with world := (settleDown.run stage.world).2 }
  let (stage, rows) := runSteps (← at_ j "steps" list) stage
  return .obj [("steps", .arr rows), ("stats", .ofList counters stage.world.nodes.toList)]

end Cohort.Scenario.Hosts
