import Cohort.Session.Record
import Cohort.Session.Replay

/-!
One end of a session. The client opens it with a hello and seals what it sends; the server answers
the hello and opens what it receives. A server that already trusts its key holds a new one back
until a record proves that the client really has it.

Instants are milliseconds of one clock.
-/

namespace Cohort

inductive SessionFailure where
  | closed
  | unproved
  deriving DecidableEq, Repr

def SessionFailure.text : SessionFailure → String
  | .closed => "session closed"
  | .unproved => "peer could not prove the shared secret"

inductive Handshake where
  | pending
  | established
  | failed (failure : SessionFailure)
  deriving DecidableEq, Repr

structure OfferedKey (Key : Type) where
  clientRandom : List UInt8
  key : Key
  hello : List UInt8
  deriving DecidableEq, Repr

structure Session (Key : Type) where
  role : Role
  clientRandom : List UInt8 := List.replicate Record.randomLength 0
  serverRandom : List UInt8 := List.replicate Record.randomLength 0
  key : Option Key := none
  offered : Option (OfferedKey Key) := none
  /-- The number of the next application record. -/
  nextNumber : UInt64 := 0
  replay : ReplayWindow := {}
  /-- The server's answer to the hello that its key belongs to. -/
  hello : Option (List UInt8) := none
  /-- Whether the other end has shown that it has the key. -/
  confirmed : Bool := false
  /-- Whether an established client has said hello again and waits for a new key. -/
  renegotiating : Bool := false
  created : Nat := 0
  lastActivity : Nat := 0
  handshake : Handshake := .pending
  deriving DecidableEq, Repr

namespace Session

variable {Key : Type}

def openedAt (role : Role) (clientRandom : List UInt8) (now : Nat) : Session Key where
  role := role
  clientRandom := clientRandom
  created := now
  lastActivity := now

/-- When the session is given up: some time after its last record, or if it never had an authentic
one, some time after its creation. -/
def expiresAt (s : Session Key) (handshakeTimeout idleTimeout : Nat) : Nat :=
  if s.confirmed then s.lastActivity + idleTimeout else s.created + handshakeTimeout

def isKeyed (s : Session Key) : Bool := s.key.isSome

/-! ### Hellos -/

def clientHello (s : Session Key) : List UInt8 := Record.clientHello :: s.clientRandom

/-- The hello of a client that was asked for a new key. -/
def renegotiate (s : Session Key) : Session Key × List UInt8 :=
  ({ s with renegotiating := true }, s.clientHello)

def helloRandom? (record : List UInt8) : Option (List UInt8) :=
  if record.length = Record.clientHelloLength then some (record.drop 1) else none

/-- The answer that a client's random bytes have had already. -/
def answered? (s : Session Key) (clientRandom : List UInt8) : Option (List UInt8) :=
  let current := if s.clientRandom = clientRandom then s.hello else none
  let offered := match s.offered with
    | some offer => if offer.clientRandom = clientRandom then some offer.hello else none
    | none => none
  current <|> offered

/-- Whether answering a hello takes fresh random bytes. -/
def needsRandom (s : Session Key) (record : List UInt8) : Bool :=
  match helloRandom? record with
  | some clientRandom => (s.answered? clientRandom).isNone
  | none => false

/-- Answers a hello: an old one as before, a new one with a new key. A key that the client has
shown to have stays current, and the new one is only offered. -/
def answerHello (suite : Suite Key) (secret fresh : List UInt8) (s : Session Key)
    (record : List UInt8) : Session Key × Option (List UInt8) :=
  match helloRandom? record with
  | none => (s, none)
  | some clientRandom =>
    match s.answered? clientRandom with
    | some hello => (s, some hello)
    | none =>
      let key := suite.derive secret clientRandom fresh
      let hello := Record.serverHelloOf suite key clientRandom fresh
      if s.confirmed then ({ s with offered := some ⟨clientRandom, key, hello⟩ }, some hello)
      else
        ({ s with
           clientRandom := clientRandom
           serverRandom := fresh
           key := some key
           replay := {}
           hello := some hello
           handshake := .established }, some hello)

/-- Takes a server's answer: the first that proves the secret, and after that one more each time
that the client was asked to say hello again. -/
def acceptHello (suite : Suite Key) (secret : List UInt8) (now : Nat) (s : Session Key)
    (record : List UInt8) : Session Key :=
  if record.length ≠ Record.serverHelloHeaderLength + Record.tagLength then s
  else
    let header := record.take Record.serverHelloHeaderLength
    let serverRandom := header.drop (1 + Record.randomLength)
    if (header.drop 1).take Record.randomLength ≠ s.clientRandom then s
    else if s.isKeyed && (!s.renegotiating || s.serverRandom == serverRandom) then s
    else
      let key := suite.derive secret s.clientRandom serverRandom
      let tag := record.drop Record.serverHelloHeaderLength
      match suite.decrypt key Record.helloNonce header tag with
      | some _ =>
        { s with
          key := some key
          serverRandom := serverRandom
          nextNumber := 0
          confirmed := true
          renegotiating := false
          lastActivity := now
          handshake := if s.isKeyed then s.handshake else .established }
      | none => if s.isKeyed then s else { s with handshake := .failed .unproved }

/-! ### Application records -/

def sealBody (suite : Suite Key) (now : Nat) (s : Session Key) (body : List UInt8) :
    Session Key × Option (List UInt8) :=
  match s.key with
  | none => (s, none)
  | some key =>
    let header := Record.applicationHeader s.nextNumber
    let sealed := suite.encrypt key (Record.applicationNonce s.nextNumber) header body
    ({ s with nextNumber := s.nextNumber + 1, lastActivity := now }, some (header ++ sealed))

def recordNumber (record : List UInt8) : UInt64 :=
  (Wire.Reader.ofBigEndian ((record.take Record.applicationHeaderLength).drop 1)).toUInt64

def bodyUnder (suite : Suite Key) (key : Key) (record : List UInt8) : Option (List UInt8) :=
  suite.decrypt key (Record.applicationNonce (recordNumber record))
    (record.take Record.applicationHeaderLength) (record.drop Record.applicationHeaderLength)

/-- The body of a record under the current key, if its number was not accepted before. -/
def openCurrent (suite : Suite Key) (s : Session Key) (record : List UInt8) :
    Option (List UInt8) :=
  if s.replay.isFresh (recordNumber record) then
    match s.key with
    | some key => bodyUnder suite key record
    | none => none
  else none

def promote (s : Session Key) (offer : OfferedKey Key) (number : UInt64) (now : Nat) :
    Session Key :=
  { s with
    clientRandom := offer.clientRandom
    key := some offer.key
    hello := some offer.hello
    offered := none
    replay := ReplayWindow.mark {} number
    lastActivity := now }

/-- Opens an application record under the current key, or else under the one on offer, which this
makes current. -/
def openBody (suite : Suite Key) (now : Nat) (s : Session Key) (record : List UInt8) :
    Session Key × Option (List UInt8) :=
  if record.length < Record.overhead then (s, none)
  else
    let number := recordNumber record
    match openCurrent suite s record with
    | some body =>
      ({ s with replay := s.replay.mark number, lastActivity := now, confirmed := true },
        some body)
    | none =>
      match s.offered with
      | none => (s, none)
      | some offer =>
        match bodyUnder suite offer.key record with
        | some body => (s.promote offer number now, some body)
        | none => (s, none)

/-! ### Closing -/

/-- The record that tells the other end to close. -/
def sealClose (suite : Suite Key) (s : Session Key) : Option (List UInt8) :=
  s.key.map fun key =>
    let header := Record.closeHeader s.role
    header ++ suite.encrypt key (Record.closeNonce s.role) header []

/-- Whether the other end of this session wrote a close record. -/
def verifiesClose (suite : Suite Key) (s : Session Key) (record : List UInt8) : Bool :=
  if record.length ≠ Record.closeHeaderLength + Record.tagLength then false
  else
    let header := record.take Record.closeHeaderLength
    match header[1]? >>= Role.ofByte?, s.key with
    | some sender, some key =>
      sender == s.role.opposite &&
        (suite.decrypt key (Record.closeNonce sender) header
          (record.drop Record.closeHeaderLength)).isSome
    | _, _ => false

end Session

end Cohort
