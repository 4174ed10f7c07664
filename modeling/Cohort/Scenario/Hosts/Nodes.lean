import Cohort.Scenario.Hosts.Basic

/-!
The steps that start nodes, and those that are for members, messengers and transports.
-/

namespace Cohort.Scenario.Hosts

open Simulation
open Net (Endpoint Ip)

/-! ### Starting -/

def newNode (host : Ip) : Play Nat := sim (addNode { host := host })

def join (j : Json) : Play Unit := do
  let request ← at_ j "config" configRequest
  let node ← newNode (← atD j "host" ip request.bind)
  let own ← if j.has "policy" then some <$> policy j else pure none
  let c ← orConfig (request.validate (← get).world.hostName)
  let plan := planOf c
  for number in ← calls 1 false do
    sim (match own with
      | none => startMember node number c (.weighted c.lossThreshold) plan
      | some p => startMember node number c p { plan with group := none })

/-- Starts the demonstration program with a command line. -/
def demo (j : Json) : Play Unit := do
  let arguments := Node.Arguments.read (← at_ j "args" (listOf text))
  let usual := (arguments.toOption.map (·.ip)).getD .localhost
  let node ← newNode (← atD j "host" ip usual)
  match arguments with
  | .error fault => throw (.misused fault)
  | .ok arguments => for number in ← calls 1 false do sim (startDemo node number arguments)

/-- The handler that a step describes. -/
def handlerOf (j : Json) : Run Handler := do
  return { failure := ← at? j "fail" text, slow := ← atD j "slow_ms" nat 0 }

def messenger (j : Json) : Play Unit := do
  let address ← at_ j "addr" endpoint
  let node ← newNode (← atD j "host" ip address.ip)
  let connect ← atD j "connect_ms" millis (.ofMillis 1000)
  let shutdown ← atD j "shutdown_ms" millis (.ofMillis 1000)
  let silent ← atD j "no_handler" bool false
  let handler ← handlerOf j
  match ← sim (openMessenger node address connect shutdown) with
  | .error fault => throw (.refused (.transport (.io fault)))
  | .ok address =>
    let handlers : Dispatcher Handler := if silent then {} else { fallback := some handler }
    sim (modifyNode node fun n => { n with kind := .messenger, handlers := handlers })
    answer (Report.endpoint address)

/-- Starts a bare transport. -/
def transport (secret : Option Security) (j : Json) : Play Unit := do
  let address ← at_ j "addr" endpoint
  let node ← newNode (← atD j "host" ip address.ip)
  let plan : StationPlan := {
    address := address
    maxDatagram := ← atD j "max" nat 1400
    group := ← at? j "multicast" endpoint
    security := secret
    heard := !(← atD j "deaf" bool false) }
  match ← sim (openStation node plan) with
  | .error fault => throw (.refused (.transport fault))
  | .ok s =>
    sim (modifyNode node fun n => { n with kind := .transport })
    let limit := if secret.isSome then SecureTransport.maxPayload s.maxDatagram else s.maxDatagram
    answer (.arr [Report.endpoint s.address, .nat limit])

/-! ### Members -/

def memberStep (index : Nat) (n : Node) (j : Json) : Play Unit := do
  let withHandlers (f : Dispatcher Handler → Dispatcher Handler) : Play Unit := do
    sim (modifyNode index fun n => { n with handlers := f n.handlers })
    answer ok
  if !n.joined then throw .absent
  match ← verb j with
  | "send" =>
    let target ← at_ j "to" (← look)
    let m ← message (← look) j
    begin_ index [.ofMember (Manager.send target m)] false
  | "broadcast" =>
    let m ← message (← look) j
    begin_ index [.ofMember (Manager.broadcast m)] false
  | "handler" =>
    let kind ← applicationKind j
    let handler ← handlerOf j
    withHandlers fun d => (d.register kind handler).1
  | "remove_handler" =>
    let kind ← applicationKind j
    withHandlers fun d => (d.unregister kind).1
  | "leave" => begin_ index [.ofMember Manager.leave] false
  | "close" => begin_ index [quiet Manager.close] false
  | "close_twice" => begin_ index [quiet Manager.close, quiet Manager.close] false
  | _ => throw (.malformed "step")

/-! ### Messengers -/

def messengerStep (index : Nat) (j : Json) : Play Unit := do
  match ← verb j with
  | "local" =>
    let m ← at_ j "member" (← look)
    sim (modifyMessenger index fun c => { c with self := some m })
    answer ok
  | "send" =>
    let target ← at_ j "to" (← look)
    let m ← message (← look) j
    begin_ index [.ofBare (delivery (.member target) m)] false
  | "send_to_addr" =>
    let target ← at_ j "to" endpoint
    let m ← message (← look) j
    begin_ index [.ofBare (delivery (.address target) m)] false
  | "disconnect" =>
    let target ← at_ j "to" endpoint
    begin_ index [.ofBare (disconnection [target])] false
  | "close" =>
    begin_ index [.ofBare channelClosing] false
  | _ => throw (.malformed "step")

/-! ### Transports -/

def transportStep (index : Nat) (j : Json) : Play Unit := do
  match ← verb j with
  | "send" =>
    let work : Work := .ofBare (transmission (← at_ j "to" destination) (← content j))
    let count ← atD j "many" nat 1
    begin_ index (List.replicate count work) (count != 1)
  | "close_session" =>
    let peer ← at_ j "to" endpoint
    sim (closeSession index peer)
    answer ok
  | "shutdown" =>
    sim (closeTransport index)
    answer ok
  | _ => throw (.malformed "step")

/-- A step that is about a node. -/
def nodeStep (j : Json) : Play Unit := do
  let (index, n) ← liveNode j
  match n.kind with
  | .member => memberStep index n j
  | .messenger => messengerStep index j
  | .transport => transportStep index j
  | .failed => throw .absent

end Cohort.Scenario.Hosts
