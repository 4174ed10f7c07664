import Cohort.Channel.Writer
import Cohort.Membership.Procedure
import Cohort.Span

/-!
The direct channel of one process: at most one connection that it opened to each address, and
whether it still sends. Connections are known by their numbers.
-/

namespace Cohort

open Net (Endpoint)

structure Messenger where
  address : Endpoint
  /-- Who its connections say they belong to. -/
  self : Option Member := none
  connectTimeout : Span
  shutdownTimeout : Span
  links : List (Endpoint × Nat) := []
  closed : Bool := false
  draining : Closing := .never
  deriving Repr

namespace Messenger

def link? (m : Messenger) (address : Endpoint) : Option Nat := m.links.lookup address

def setLink (m : Messenger) (address : Endpoint) (number : Nat) : Messenger :=
  { m with links := m.links ++ [(address, number)] }

def removeLink (m : Messenger) (address : Endpoint) : Messenger :=
  { m with links := m.links.filter (·.1 != address) }

/-- A connection that failed is not used again. -/
def discard (m : Messenger) (address : Endpoint) (number : Nat) : Messenger :=
  { m with links := m.links.filter (· != (address, number)) }

/-- A delivery made definite: the address, the schema and the message that goes there. -/
structure Addressed where
  address : Endpoint
  version : Version
  message : Message
  deriving DecidableEq, Repr

/-- Where a delivery goes. A member without a direct channel cannot be reached; whoever listens at a
bare address is taken to understand the current schema. -/
def resolve (d : Delivery) : Except ServiceError Addressed :=
  match d.recipient with
  | .address address => .ok ⟨address, .current, d.message⟩
  | .member member =>
    match member.directAddress? with
    | none => .error (.transport (.unreachable member.membershipAddress))
    | some address =>
      .ok ⟨address, Version.current.common member.version,
        { d.message with recipient := some member }⟩

def identity (m : Messenger) : Except ServiceError Member :=
  if m.closed then .error .closed
  else match m.self with
    | some self => .ok self
    | none => .error (.other ["local member identity is not set"])

/-- The connection on which a message is queued: the one that is used for its address, or else a new
one with the number `fresh`, which is opened in the schema of this message. -/
def route {τ : Type} (m : Messenger) (a : Addressed) (fresh : Nat) :
    Except ServiceError (Messenger × Nat × Option (Writer τ)) :=
  match m.identity with
  | .error fault => .error fault
  | .ok self =>
    match m.link? a.address with
    | some number => .ok (m, number, none)
    | none =>
      .ok (m.setLink a.address fresh, fresh,
        some { address := a.address, self := self, version := a.version })

/-- Nothing is sent any more, and no connection is used again. -/
def shut (m : Messenger) : Messenger := { m with closed := true, links := [], draining := .underway }

end Messenger

end Cohort
