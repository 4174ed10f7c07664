import Cohort.Scenario.Hosts.Basic

/-!
What a scenario on simulated hosts shows after each step: what is done, what scripted members
received, and what changed in the nodes.
-/

namespace Cohort.Scenario.Hosts

open Simulation
open Net (Endpoint Ip)

/-! ### What was sent -/

/-- The most bytes of something undecodable that are shown in full. -/
def shownUndecodable : Nat := 128

/-- The most bytes of a datagram that are shown in full on the wire. -/
def shownWire : Nat := 256

def sighted (data : List UInt8) : Json :=
  match Codec.decode .current data with
  | .ok m => .obj [
      ("recipient", .ofOption Report.short m.recipient),
      ("sender", .ofOption Report.short m.sender),
      ("kind", .str m.kind.text),
      ("schema", .nat (Wire.Reader.ofBigEndian ((data.drop 2).take 2))),
      ("len", .nat data.length),
      ("payload", Report.payload Report.short m.payload)]
  | .error _ =>
    if data.length ≤ shownUndecodable then .obj [("hex", .hex data)]
    else .obj [("type", .ofOption (fun b : UInt8 => .nat b.toNat) data.head?),
      ("len", .nat data.length)]

/-- Rows in the order of a number and a text. -/
def sortRows (rows : List (Nat × String × Json)) : List Json :=
  let before (a b : Nat × String × Json) : Bool :=
    a.1 < b.1 || (a.1 == b.1 && a.2.1 ≤ b.2.1)
  (rows.mergeSort before).map fun (peer, source, j) => .arr [.nat peer, .str source, j]

def datagramRows (w : World) : List Json :=
  sortRows (w.peerDatagrams.map fun (peer, d) => (peer, d.source.render, sighted d.data))

def frameRows (w : World) : List Json :=
  sortRows (w.peerFrames.map fun f =>
    (f.peer, f.source.render, (f.frame.map sighted).getD (.str "closed")))

/-- Datagrams in the order of the texts of where they come from and go to. -/
def wireRows (posted : List Posted) : List Json :=
  let rows := posted.map fun p => (p.source.render, p.target.render, p.data)
  let before (a b : String × String × List UInt8) : Bool :=
    a.1 < b.1 || (a.1 == b.1 && a.2.1 ≤ b.2.1)
  (rows.mergeSort before).map fun (source, target, data) =>
    let body := if data.length ≤ shownWire then Json.hex data else .str (toString data.length)
    .arr [.str source, .str target, body]

/-! ### Nodes -/

def memberOf (n : Node) : Option Member :=
  if n.joined && !n.dropped then n.manager.map (·.self) else none

def healthRow (w : World) (members : List Member) (m : Manager) : Json :=
  let subjects := members.map some ++ w.nodes.toList.map memberOf
  let state (s : Option Member) : Json :=
    .ofOption (fun h : HealthState => .str h.text) (s.bind m.healthOf)
  .ofList state subjects

def memberFields (w : World) (members : List Member) (m : Manager) : Fields := [
  ("local", Report.short m.self),
  ("closed", .bool (m.phase == .closed)),
  ("coordinator", .ofOption Report.short m.coordinator?),
  ("view", .ofOption (Report.view Report.short) m.view),
  ("health", healthRow w members m)]

/-- Whether a transport has a session with a node, as far as that is a transport. -/
def sessionWith (secure : SecureTransport Gcm.Key) (n : Node) : Json :=
  match n.kind, n.station with
  | .transport, some s => .bool (!n.dropped && secure.hasSession s.address)
  | _, _ => .bool false

def transportFields (w : World) (n : Node) : Fields := [
  ("sessions", .ofOption (fun t => .ofList (sessionWith t) w.nodes.toList)
    (n.station.bind (·.secure))),
  ("retransmits", .wide (n.statistics.get .handshakeRetransmits).toNat)]

def stateFields (w : World) (members : List Member) (n : Node) : Fields :=
  if n.dropped then []
  else match n.kind, n.manager with
    | .member, some m => if n.joined then memberFields w members m else []
    | .messenger, _ => [("closed", .bool ((n.messenger.map (·.closed)).getD true))]
    | .transport, _ => transportFields w n
    | _, _ => []

/-- The most bytes that are shown in full of what a transport received. -/
def shownReceived : Nat := 64

def receptionRow : Reception → Json
  | .datagram d => .arr [Report.endpoint d.source, shown shownReceived d.data]
  | .lagged missed => .obj [("lagged", .nat missed)]

def eventRow : Ring.Entry View.Event → Json
  | .item e => Report.event Report.short e
  | .lagged missed => .obj [("lagged", .nat missed)]

/-- What a reader finds in a buffer. -/
def entries {α : Type} (r : Ring α) : List (Ring.Entry α) :=
  (if r.missed > 0 then [.lagged r.missed] else []) ++ r.items.map .item

def happenings (n : Node) : Fields :=
  let some_ (key : String) (rows : List Json) : Fields :=
    if rows.isEmpty then [] else [(key, .arr rows)]
  let delivered := some_ "delivered" (n.delivered.map (Report.message Report.short))
  if n.dropped then delivered
  else
    some_ "events" (((n.events.map entries).getD []).map eventRow) ++ delivered
      ++ (if n.kind = .transport then some_ "received" (n.received.map receptionRow) else [])

/-- The fields that differ from what was shown before. -/
def changes (before now : Fields) : Fields :=
  now.filter fun (key, j) => !((before.lookup key).map (·.same j)).getD false

def clear (n : Node) : Node :=
  { n with events := n.events.map fun _ => {}, delivered := [], received := [] }

/-! ### Steps -/

/-- The result of calls, once all are over. -/
def resultOf (finished : List (Nat × Outcome)) (b : Begun) : Option (Nat × Json) :=
  match b.calls.mapM fun call => finished.lookup call with
  | none => none
  | some outcomes =>
    let result := if b.listed then .ofList outcome outcomes
      else match outcomes.find? (!·.isOk) with
        | some o => outcome o
        | none => ok
    some (b.step, result)

def finishedRows (stage : Stage) : List Json :=
  let results := stage.results ++ stage.begun.filterMap (resultOf stage.world.finished)
  (results.mergeSort fun a b => a.1 ≤ b.1).map fun (step, j) => .arr [.nat step, j]

/-- The report of a step, and what is left for the next. -/
def report (stage : Stage) : Stage × Json :=
  let w := stage.world
  let now := w.nodes.toList.map (stateFields w stage.members)
  let before := stage.fields ++ List.replicate (now.length - stage.fields.length) []
  let nodes := (w.nodes.toList.zip (before.zip now)).map fun (n, b, f) =>
    Json.obj (changes b f ++ happenings n)
  let posted := (w.network.posted.take (w.network.posted.length - stage.posted)).reverse
  let some_ (key : String) (rows : List Json) : Fields :=
    if rows.isEmpty then [] else [(key, .arr rows)]
  let fields := [("now_ms", Json.nat w.now)]
    ++ some_ "finished" (finishedRows stage)
    ++ some_ "datagrams" (datagramRows w)
    ++ some_ "direct" (frameRows w)
    ++ some_ "nodes" nodes
    ++ some_ "wire" (wireRows posted)
  let pending := stage.begun.filter fun b => (resultOf w.finished b).isNone
  let kept := now.zip before |>.map fun (f, b) => if f.isEmpty then b else f
  ({ stage with
     step := stage.step + 1
     begun := pending
     results := []
     fields := kept
     posted := w.network.posted.length
     world := { w with
       peerDatagrams := []
       peerFrames := []
       nodes := w.nodes.map clear } }, .obj fields)

/-- The counters of a node at the end. -/
def counters (n : Node) : Json :=
  if n.dropped then .null
  else match n.kind, n.manager with
    | .member, some m => if n.joined then Report.statistics m.statistics else .null
    | .messenger, _ | .transport, _ => Report.statistics n.statistics
    | _, _ => .null

end Cohort.Scenario.Hosts
