import Cohort.Error
import Cohort.Session.Basic
import Cohort.Span

/-!
Datagrams over sessions. With each peer there can be two: one that this side opened, for what it
sends, and one that the peer opened, for what it receives. Records wait in their session's queue
until the session attends to them; closing and asking for a new key take effect on arrival.

The transport itself does nothing to the network. What is to be transmitted comes out as effects, in
order, and instants are milliseconds of one clock.
-/

namespace Cohort

/-- A session with a peer, under a number that no other session of the transport ever has. -/
structure PeerSession (Key : Type) where
  number : Nat
  peer : Net.Endpoint
  session : Session Key
  queue : List (List UInt8) := []

structure SecureTransport (Key : Type) where
  secret : List UInt8
  handshakeTimeout : Nat
  idleTimeout : Nat
  sessions : List (PeerSession Key) := []
  nextNumber : Nat := 0
  closed : Bool := false

namespace SecureTransport

variable {Key : Type}

inductive Effect where
  | transmit (peer : Net.Endpoint) (record : List UInt8)
  | deliver (peer : Net.Endpoint) (body : List UInt8)
  /-- A session has a record to attend to, or is new. -/
  | attend (number : Nat)
  /-- A session's handshake has come to an end or the session was closed. -/
  | settled (number : Nat)
  deriving DecidableEq, Repr

def fits (peer : Net.Endpoint) (role : Role) (s : PeerSession Key) : Bool :=
  s.peer == peer && s.session.role == role

def session? (t : SecureTransport Key) (peer : Net.Endpoint) (role : Role) :
    Option (PeerSession Key) := t.sessions.find? (fits peer role)

def numbered? (t : SecureTransport Key) (number : Nat) : Option (PeerSession Key) :=
  t.sessions.find? (·.number == number)

def hasSession (t : SecureTransport Key) (peer : Net.Endpoint) : Bool :=
  (t.session? peer .client).isSome || (t.session? peer .server).isSome

def update (t : SecureTransport Key) (number : Nat) (f : PeerSession Key → PeerSession Key) :
    SecureTransport Key :=
  { t with sessions := t.sessions.map fun s => if s.number == number then f s else s }

def setSession (t : SecureTransport Key) (number : Nat) (session : Session Key) :
    SecureTransport Key := t.update number fun s => { s with session := session }

def add (t : SecureTransport Key) (peer : Net.Endpoint) (session : Session Key) :
    SecureTransport Key × Nat :=
  ({ t with
     sessions := t.sessions ++ [⟨t.nextNumber, peer, session, []⟩]
     nextNumber := t.nextNumber + 1 }, t.nextNumber)

/-- The session of a role with a peer, a new one if there is none. -/
def obtain (t : SecureTransport Key) (now : Nat) (fresh : List UInt8) (peer : Net.Endpoint)
    (role : Role) : SecureTransport Key × Nat :=
  match t.session? peer role with
  | some s => (t, s.number)
  | none => t.add peer (.openedAt role fresh now)

def remove (t : SecureTransport Key) (number : Nat) : SecureTransport Key :=
  { t with sessions := t.sessions.filter (·.number != number) }

def forget (t : SecureTransport Key) (peer : Net.Endpoint) (role : Role) :
    SecureTransport Key × List Effect :=
  match t.session? peer role with
  | some s => (t.remove s.number, [.settled s.number])
  | none => (t, [])

/-- How far a session's handshake has come; one that is gone was closed. -/
def handshakeOf (t : SecureTransport Key) (number : Nat) : Handshake :=
  match t.numbered? number with
  | some s => s.session.handshake
  | none => .failed .closed

/-! ### Receiving -/

def enqueue (t : SecureTransport Key) (number : Nat) (record : List UInt8) :
    SecureTransport Key × List Effect :=
  (t.update number fun s => { s with queue := s.queue ++ [record] }, [.attend number])

def zeros : List UInt8 := List.replicate Record.randomLength 0

/-- A peer says that it closed the session in which it had this role. -/
def closedByPeer (suite : Suite Key) (t : SecureTransport Key) (peer : Net.Endpoint)
    (sender : Role) (record : List UInt8) : SecureTransport Key × List Effect :=
  match t.session? peer sender.opposite with
  | none => (t, [])
  | some s =>
    if s.session.verifiesClose suite record then (t.remove s.number, [.settled s.number])
    else (t, [])

/-- A peer lost the key of what this side sends: says hello again, unless it never got an answer. -/
def repeatHello (t : SecureTransport Key) (peer : Net.Endpoint) :
    SecureTransport Key × List Effect :=
  match t.session? peer .client with
  | none => (t, [])
  | some s =>
    if s.session.isKeyed then
      let (session, hello) := s.session.renegotiate
      (t.setSession s.number session, [.transmit peer hello])
    else (t, [])

/-- Takes a record in: hands it to its session, or acts on it at once. Application data without a
session is answered with a request for a new key. -/
def route (suite : Suite Key) (now : Nat) (t : SecureTransport Key) (peer : Net.Endpoint)
    (record : List UInt8) : SecureTransport Key × List Effect :=
  match record with
  | [] => (t, [])
  | type :: rest =>
    if type = Record.clientHello then
      let (t, number) := t.obtain now zeros peer .server
      t.enqueue number record
    else if type = Record.serverHello then
      match t.session? peer .client with
      | some s => t.enqueue s.number record
      | none => (t, [])
    else if type = Record.application then
      match t.session? peer .server with
      | some s => t.enqueue s.number record
      | none => (t, [.transmit peer [Record.renegotiate]])
    else if type = Record.close then
      match rest.head? >>= Role.ofByte? with
      | some sender => t.closedByPeer suite peer sender record
      | none => (t, [])
    else if type = Record.renegotiate then t.repeatHello peer
    else (t, [])

def process (suite : Suite Key) (now : Nat) (fresh : List UInt8) (t : SecureTransport Key)
    (s : PeerSession Key) (record : List UInt8) : SecureTransport Key × List Effect :=
  match s.session.role, record.head? with
  | .server, some type =>
    if type = Record.clientHello then
      let (session, hello) := s.session.answerHello suite t.secret fresh record
      (t.setSession s.number session, hello.toList.map (.transmit s.peer))
    else if type = Record.application then
      let (session, body) := s.session.openBody suite now record
      (t.setSession s.number session, body.toList.map (.deliver s.peer))
    else (t, [])
  | .client, some type =>
    if type = Record.serverHello then
      let session := s.session.acceptHello suite t.secret now record
      (t.setSession s.number session,
        if session.handshake = s.session.handshake then [] else [.settled s.number])
    else (t, [])
  | _, none => (t, [])

/-- Whether attending to a session's next record takes fresh random bytes. -/
def needsRandom (t : SecureTransport Key) (number : Nat) : Bool :=
  match t.numbered? number with
  | some s =>
    match s.queue with
    | record :: _ =>
      s.session.role == .server && record.head? == some Record.clientHello
        && s.session.needsRandom record
    | [] => false
  | none => false

def attend (suite : Suite Key) (now : Nat) (fresh : List UInt8) (t : SecureTransport Key)
    (number : Nat) : SecureTransport Key × List Effect × Bool :=
  match t.numbered? number with
  | none => (t, [], false)
  | some s =>
    match s.queue with
    | [] => (t, [], false)
    | record :: rest =>
      let t := t.update number fun s => { s with queue := rest }
      let (t, effects) := t.process suite now fresh { s with queue := rest } record
      (t, effects, true)

def queued (t : SecureTransport Key) (number : Nat) : Nat :=
  match t.numbered? number with
  | some s => s.queue.length
  | none => 0

def expiresAt? (t : SecureTransport Key) (number : Nat) : Option Nat :=
  (t.numbered? number).map (·.session.expiresAt t.handshakeTimeout t.idleTimeout)

def close (suite : Suite Key) (t : SecureTransport Key) (s : PeerSession Key) :
    SecureTransport Key × List Effect :=
  let farewell := (s.session.sealClose suite).toList.map (Effect.transmit s.peer)
  (t.remove s.number, .settled s.number :: farewell)

def expire (suite : Suite Key) (now : Nat) (t : SecureTransport Key) (number : Nat) :
    SecureTransport Key × List Effect :=
  match t.numbered? number with
  | none => (t, [])
  | some s =>
    if s.session.expiresAt t.handshakeTimeout t.idleTimeout ≤ now then t.close suite s else (t, [])

/-! ### Sending -/

/-- Whoever waits for a session's handshake in order to send. -/
structure Caller where
  peer : Net.Endpoint
  number : Nat
  deadline : Nat
  attempts : Nat := 0
  /-- When the hello is to be transmitted next. -/
  nextHello : Nat := 0
  deriving DecidableEq, Repr

inductive Progress where
  | established
  | failed (fault : TransportFault)
  | waiting
  /-- The hello is to be transmitted, and the next look comes when the session has settled, or at
  the instant of the next hello. -/
  | hello (record : List UInt8)
  deriving DecidableEq, Repr

/-- The time between two hellos: a quarter of the handshake's, up to a whole millisecond. -/
def helloInterval (t : SecureTransport Key) : Nat := max ((t.handshakeTimeout + 3) / 4) 1

def call (t : SecureTransport Key) (now : Nat) (fresh : List UInt8) (peer : Net.Endpoint) :
    SecureTransport Key × Caller :=
  let (t, number) := t.obtain now fresh peer .client
  (t, { peer := peer, number := number, deadline := now + t.handshakeTimeout })

/-- A caller looks at its session. When the handshake failed or took too long, the session with the
peer goes. -/
def proceed (t : SecureTransport Key) (now : Nat) (c : Caller) :
    SecureTransport Key × List Effect × Caller × Progress :=
  let fail (reason : String) : SecureTransport Key × List Effect × Caller × Progress :=
    let (t, effects) := t.forget c.peer .client
    (t, effects, c, .failed (.handshake c.peer reason))
  match t.handshakeOf c.number with
  | .established => (t, [], c, .established)
  | .failed failure => fail failure.text
  | .pending =>
    if now ≥ c.deadline then fail ("no answer within " ++ (Span.ofMillis t.handshakeTimeout).text)
    else if now < c.nextHello then (t, [], c, .waiting)
    else
      match t.numbered? c.number with
      | none => (t, [], c, .failed (.handshake c.peer SessionFailure.closed.text))
      | some s =>
        let next := min (now + t.helloInterval) c.deadline
        (t, [], { c with attempts := c.attempts + 1, nextHello := next },
          .hello s.session.clientHello)

def sealBody (suite : Suite Key) (now : Nat) (t : SecureTransport Key) (c : Caller)
    (body : List UInt8) : SecureTransport Key × Except TransportFault (List UInt8) :=
  let noKey : TransportFault := .handshake c.peer "session has no key"
  match t.numbered? c.number with
  | none => (t, .error noKey)
  | some s =>
    match s.session.sealBody suite now body with
    | (session, some record) => (t.setSession s.number session, .ok record)
    | (_, none) => (t, .error noKey)

/-! ### Closing -/

/-- Closes what sessions there are with a peer, and tells it. -/
def closeSession (suite : Suite Key) (t : SecureTransport Key) (peer : Net.Endpoint) :
    SecureTransport Key × List Effect :=
  let closeRole (t : SecureTransport Key) (role : Role) : SecureTransport Key × List Effect :=
    match t.session? peer role with
    | some s => t.close suite s
    | none => (t, [])
  let (t, first) := closeRole t .client
  let (t, second) := closeRole t .server
  (t, first ++ second)

def closeSessions (suite : Suite Key) (t : SecureTransport Key) :
    List Net.Endpoint → SecureTransport Key × List Effect
  | [] => (t, [])
  | peer :: rest =>
    let (t, effects) := t.closeSession suite peer
    let (t, more) := closeSessions suite t rest
    (t, effects ++ more)

/-- Closes every session; nothing is sent after that. Doing it again does nothing. -/
def shutdown (suite : Suite Key) (t : SecureTransport Key) : SecureTransport Key × List Effect :=
  if t.closed then (t, [])
  else
    let peers := t.sessions.map fun s => s.peer
    ({ t with closed := true } : SecureTransport Key).closeSessions suite peers

/-- How much fits into a datagram that holds `limit` bytes. -/
def maxPayload (limit : Nat) : Nat := limit - Record.overhead

end SecureTransport

end Cohort
