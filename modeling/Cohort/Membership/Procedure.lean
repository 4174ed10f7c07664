import Cohort.Message.Basic
import Cohort.Span

/-!
Work that is done in pieces. A piece reads and writes the state of a member and is never
interrupted; between two pieces the work waits for something outside the member, and other work may
go on there. Several procedures of one member are always interleaved piece by piece.
-/

namespace Cohort

/-- To whom a message on the direct channel goes. -/
inductive Recipient where
  | member (member : Member)
  | address (address : Net.Endpoint)
  deriving DecidableEq, Repr

/-- A message for the direct channel. -/
structure Delivery where
  recipient : Recipient
  message : Message
  deriving DecidableEq, Repr

inductive JoinOutcome where
  | answered (answer : JoinAnswer)
  | silence
  /-- The member was closed meanwhile. -/
  | closed
  deriving DecidableEq, Repr

inductive Closing where
  | never
  | underway
  | finished
  deriving DecidableEq, Repr

inductive ActorName where
  /-- Hands events to the failure detector, one at a time. -/
  | watch
  | pulse
  deriving DecidableEq, Repr

/-- A change of the view that a member wants to make. -/
inductive ViewChange where
  | admission (joiner : Member)
  | departure (leaver : Member)
  | removal (crashed : List Member)
  /-- A coordinator that leaves makes the view after it. -/
  | handover
  deriving DecidableEq, Repr

/-- What a procedure waits for. -/
inductive Effect where
  | datagram (target : Net.Endpoint) (data : List UInt8)
  | multicast (data : List UInt8)
  | deliver (deliveries : List Delivery)
  /-- The turn to change the view. -/
  | changeTurn (change : ViewChange)
  | joinAnswer (patience : Span)
  | disconnect (address : Net.Endpoint)
  | handler (message : Message)
  /-- The end of an actor, but not longer than a time. -/
  | actorEnd (actor : ActorName) (patience : Span)
  | closeChannel
  | closeTransport
  | closed
  deriving DecidableEq, Repr

def Effect.Answer : Effect → Type
  | .datagram _ _ => Except TransportFault Unit
  | .multicast _ => Except TransportFault Unit
  | .deliver _ => List (Except ServiceError Unit)
  | .joinAnswer _ => JoinOutcome
  | .handler _ => Except ServiceError Unit
  | .changeTurn _ => Unit
  | .disconnect _ => Unit
  | .actorEnd _ _ => Unit
  | .closeChannel => Unit
  | .closeTransport => Unit
  | .closed => Unit

/-- A procedure over a state, with a result. -/
inductive Procedure (σ α : Type) where
  | done (result : α)
  | read (next : σ → Procedure σ α)
  | write (state : σ) (next : Procedure σ α)
  | await (effect : Effect) (next : effect.Answer → Procedure σ α)

namespace Procedure

variable {σ α β : Type}

def bind (p : Procedure σ α) (f : α → Procedure σ β) : Procedure σ β :=
  match p with
  | .done result => f result
  | .read next => .read fun s => (next s).bind f
  | .write s next => .write s (next.bind f)
  | .await effect next => .await effect fun answer => (next answer).bind f

instance : Monad (Procedure σ) where
  pure := .done
  bind := bind

instance : MonadStateOf σ (Procedure σ) where
  get := .read .done
  set s := .write s (.done ())
  modifyGet f := .read fun s => .write (f s).2 (.done (f s).1)

def perform (effect : Effect) : Procedure σ effect.Answer := .await effect .done

/-- Where a piece of work stops. -/
inductive Stop (σ α : Type) where
  | done (result : α)
  | waiting (effect : Effect) (next : effect.Answer → Procedure σ α)

/-- Runs one piece: up to the end, or to what the procedure waits for next. -/
def run (p : Procedure σ α) (s : σ) : σ × Stop σ α :=
  match p with
  | .done result => (s, .done result)
  | .read next => (next s).run s
  | .write s next => next.run s
  | .await effect next => (s, .waiting effect next)

end Procedure

end Cohort
