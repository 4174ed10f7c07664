import Cohort.Scenario.Hosts.Basic

/-!
The steps that are for scripted members, for the network, and for time.
-/

namespace Cohort.Scenario.Hosts

open Simulation
open Net (Endpoint Ip)

/-! ### Scripted members -/

def peerOf (j : Json) : Play (Nat × Peer) := do
  let index ← at_ j "peer" nat
  match (← get).world.peers[index]? with
  | some p => return (index, p)
  | none => throw (.malformed "peer")

def setPeer (index : Nat) (j : Json) : Play Unit := do
  let alive ← at? j "alive" bool
  let confirms ← at? j "confirms" bool
  let cut ← at? j "cut" bool
  sim (modifyPeer index fun p => { p with
    alive := alive.getD p.alive
    confirms := confirms.getD p.confirms
    cut := cut.getD p.cut })
  match ← at? j "listening" bool with
  | none => return
  | some listening =>
    sim (deafenPeer index)
    if listening then
      if let .error fault ← sim (listenAsPeer index) then throw (.refused (.transport (.io fault)))

/-- The endpoint that a step names: an address, or that of a member. -/
def endpointOf (look : Lookup) (ofMember : Member → Option Endpoint) (j : Json) : Run Endpoint := do
  match j with
  | .str _ => endpoint j
  | j => need "endpoint" (ofMember (← look j))

/-- What a peer writes: bytes, the content of a frame, or a message in a frame. -/
def written (look : Lookup) (version : Version) (j : Json) : Run (List UInt8) := do
  if let some raw ← at? j "raw" bytes then return raw
  let data ← match ← at? j "hex" bytes with
    | some data => pure data
    | none => do orCodec (Codec.encode version (← message look j))
  return (Frame.encode data).toOption.getD []

def direct (j : Json) : Play Unit := do
  let (index, p) ← peerOf j
  let look ← look
  let target ← at_ j "to" (endpointOf look (·.directAddress?))
  let identity ← match j.find? "as" with
    | none => pure (some p.member)
    | some .null => pure none
    | some r => some <$> look r
  let usual := (identity.map (·.version)).getD .current
  let v ← atD j "version" version usual
  let greeting := match identity with
    | some self => greetingOf self
    | none => []
  let data ← written look v j
  for call in ← calls 1 false do sim (doInTurn index (.write ⟨target, greeting, data, some call⟩))

/-- The outcome of several sends is the first failure. -/
def sendTimes (index : Nat) (target : Endpoint) (data : List UInt8) : Nat → Sim Outcome
  | 0 => return .ok ()
  | count + 1 => do
    match ← sendAsPeer index target data with
    | .error e => return .error e
    | .ok _ => sendTimes index target data count

def datagram (j : Json) : Play Unit := do
  let (index, _) ← peerOf j
  let look ← look
  let target ← at_ j "to" (endpointOf look fun m => some m.membershipAddress)
  let data ← match ← at? j "hex" bytes with
    | some data => pure data
    | none => do
      let v ← atD j "version" version .current
      orCodec (Codec.encode v (← message look j))
  answer (outcome (← sim (sendTimes index target data (← atD j "times" nat 1))))

def peerStep (j : Json) : Play Unit := do
  let (index, _) ← peerOf j
  match ← verb j with
  | "hangup" => for call in ← calls 1 false do sim (doInTurn index (.hangUp call))
  | _ =>
    setPeer index j
    answer ok

/-! ### The network -/

/-- The latest datagram but some that was sent from one endpoint to another and begins with a byte. -/
def sentBefore (w : World) (source target : Endpoint) (type : UInt8) (back : Nat) :
    Option (List UInt8) :=
  let fits (p : Posted) : Bool :=
    p.source == source && p.target == target && p.data.head? == some type
  ((w.network.posted.filter fits)[back]?).map (·.data)

def inject (j : Json) : Play Unit := do
  let source ← at_ j "from" endpoint
  let target ← at_ j "to" endpoint
  let found ← match ← at? j "hex" bytes with
    | some data => pure (some data)
    | none => do
      let type ← at_ j "type" byte
      pure (sentBefore (← get).world source target type (← atD j "back" nat 0))
  match found with
  | none => answer .null
  | some data =>
    let data ← altered j data
    let times ← atD j "times" nat 1
    for _ in List.range times do sim (onNetwork (·.inject source target data))
    answer ok

def cut (j : Json) : Play Unit := do
  let a ← at_ j "a" (listOf ip)
  let b ← at_ j "b" (listOf ip)
  let datagramsOnly ← atD j "datagrams_only" bool false
  let cuts := a.flatMap fun x => b.map fun y => Cut.mk x y datagramsOnly
  sim (modify fun w => { w with network := w.network.cut cuts })
  answer ok

def fail (j : Json) : Play Unit := do
  let host ← at_ j "host" ip
  let what ← at_ j "what" text
  let times ← at_ j "times" nat
  let set (f : Failures) : Failures := match what with
    | "send" => { f with send := times }
    | "receive" => { f with receive := times }
    | _ => { f with accept := times }
  sim (onNetwork fun n =>
    let h := n.host host
    (n.setHost { h with failures := set h.failures }).stir)
  answer ok

/-- A step that is about no node, if it is one. -/
def worldStep (j : Json) : Play Bool := do
  match ← verb j with
  | "direct" => direct j
  | "datagram" => datagram j
  | "hangup" | "peer" => peerStep j
  | "inject" => inject j
  | "cut" => cut j
  | "heal" =>
    sim (onNetwork (·.heal))
    answer ok
  | "fail" => fail j
  | "interrupt" =>
    sim (interrupt (← at_ j "host" ip))
    answer ok
  | "advance" =>
    sim (elapse (← at_ j "ms" nat))
    answer ok
  | _ => return false
  return true

end Cohort.Scenario.Hosts
