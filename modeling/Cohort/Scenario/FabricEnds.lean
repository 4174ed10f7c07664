import Cohort.Scenario.Steps
import Cohort.Transport.Fabric

/-!
Scenarios on a fabric alone: named ends are bound, send, and show what they receive.
-/

namespace Cohort.Scenario

/-- An end of a fabric under a name. -/
structure FabricEnd where
  name : String
  address : Net.Endpoint
  closed : Bool := false

structure FabricEnds where
  fabric : Fabric
  ends : List FabricEnd := []

namespace FabricEnds

def end? (f : FabricEnds) (name : String) : Option FabricEnd := f.ends.find? (·.name == name)

def destinationText : Destination → Json
  | .multicast => .str "multicast"
  | .endpoint target => Report.endpoint target

/-- The most bytes that a report shows in full. -/
def shownBytes : Nat := 64

/-- A report of a step: its result, and what each end received. -/
def report (result : Json) (received : List (String × Json)) : Json :=
  .obj [("received", .obj received), ("result", result)]

/-- Who hears a datagram at some addresses. -/
def heard (f : FabricEnds) (source : Net.Endpoint) (data : List UInt8)
    (arrivals : List Net.Endpoint) : List (String × Json) :=
  let hears (e : FabricEnd) : Bool := !e.closed && e.address ∈ arrivals
  (f.ends.filter hears).map fun e =>
    (e.name, .arr [.arr [Report.endpoint source, shown shownBytes data]])

def send (f : FabricEnds) (e : FabricEnd) (target : Destination) (data : List UInt8) :
    FabricEnds × Json :=
  if e.closed then
    (f, report (Report.transportFault (.io .shutDown)) [])
  else
    let (fabric, result) := f.fabric.send e.address target data
    let f := { f with fabric := fabric }
    match result with
    | .error fault => (f, report (Report.transportFault fault) [])
    | .ok arrivals => (f, report ok (f.heard e.address data arrivals))

def bind (f : FabricEnds) (name : String) (address : Net.Endpoint) : FabricEnds × Json :=
  let (fabric, result) := f.fabric.bind address
  let f := { f with fabric := fabric }
  match result with
  | .error fault => (f, report (Report.transportFault fault) [])
  | .ok address =>
    let ends := f.ends.filter (·.name != name) ++ [{ name := name, address := address }]
    ({ f with ends := ends }, report (.obj [("addr", Report.endpoint address),
      ("max", .nat Fabric.maxDatagram)]) [])

def shutdown (f : FabricEnds) (e : FabricEnd) : FabricEnds where
  fabric := if e.closed then f.fabric else f.fabric.release e.address
  ends := f.ends.map fun x => if x.name == e.name then { x with closed := true } else x

def step (f : FabricEnds) (j : Json) : Run (FabricEnds × Json) := do
  let named : Run FabricEnd := do need "end" (f.end? (← at_ j "end" text))
  match ← verb j with
  | "bind" => return f.bind (← at_ j "end" text) (← atD j "addr" endpoint { ip := .localhost, port := 0 })
  | "send" => return f.send (← named) (← at_ j "to" destination) (← content j)
  | "shutdown" => return (f.shutdown (← named), report ok [])
  | "reach" =>
    let address ← at_ j "addr" endpoint
    let fabric := f.fabric.setReachable address (← at_ j "up" bool)
    return ({ f with fabric := fabric },
      report (.obj [("reachable", .bool (fabric.isReachable address))]) [])
  | "sent" =>
    let row (d : FabricDatagram) : Json :=
      .arr [Report.endpoint d.source, destinationText d.destination, .nat d.data.length]
    return (f, report (.obj [("sent", .ofList row f.fabric.sent.reverse)]) [])
  | "clear_sent" =>
    return ({ f with fabric := { f.fabric with sent := [] } }, report ok [])
  | _ => malformed "step"

/-- Runs a scenario on a fabric. -/
def run (j : Json) : Run Json := do
  runSteps j { fabric := { multicast := ← atD j "multicast" bool false } } step

end FabricEnds

end Cohort.Scenario
