import Cohort.Message.Codec
import Cohort.Message.Frame

/-!
A connection of the direct channel at the side that opens it. Messages are written in the order in
which they were queued; the connection is opened for the first of them, and a handshake goes before
it. After a failure nothing more is written, and every message still gets its result.
-/

namespace Cohort

/-- What is queued on a connection, each with a ticket for its result. -/
inductive Outgoing (τ : Type) where
  | message (message : Message) (ticket : τ)
  /-- Everything before it is to be written, and the connection closed. -/
  | close (ticket : τ)
  deriving DecidableEq, Repr

/-- How far a connection is. -/
inductive WriterStage where
  | unopened
  | greeting
  | ready
  | broken
  | closed
  deriving DecidableEq, Repr

structure Writer (τ : Type) where
  address : Net.Endpoint
  self : Member
  version : Version
  stage : WriterStage := .unopened
  queue : List (Outgoing τ) := []
  deriving DecidableEq, Repr

namespace Writer

variable {τ : Type}

inductive Want (τ : Type) where
  | nothing
  | connect
  /-- A frame with these bytes, which are a message's if `counted`. -/
  | write (data : List UInt8) (counted : Bool)
  | fail (fault : ServiceError)
  | close (ticket : τ)
  deriving DecidableEq, Repr

def enqueue (w : Writer τ) (item : Outgoing τ) : Writer τ :=
  { w with queue := w.queue ++ [item] }

def greeting (w : Writer τ) : Message := .of (.handshake w.self)

def lost (w : Writer τ) : ServiceError := .transport (.connectionLost w.address)

def writeOf (w : Writer τ) (message : Message) (counted : Bool) : Want τ :=
  match Codec.encode w.version message with
  | .ok data => .write data counted
  | .error fault => .fail (.codec fault)

/-- What the first item of the queue needs next. -/
def want (w : Writer τ) : Want τ :=
  match w.stage, w.queue with
  | .closed, _ => .nothing
  | _, [] => .nothing
  | _, .close ticket :: _ => .close ticket
  | .unopened, .message _ _ :: _ => .connect
  | .greeting, .message _ _ :: _ => w.writeOf w.greeting false
  | .ready, .message m _ :: _ => w.writeOf { m with sender := some w.self } true
  | .broken, .message _ _ :: _ => .fail w.lost

def opened (w : Writer τ) : Writer τ := { w with stage := .greeting }

def settle (w : Writer τ) : Writer τ × Option τ :=
  match w.queue with
  | .message _ ticket :: rest => ({ w with queue := rest }, some ticket)
  | _ => (w, none)

/-- The first message failed, and with it the connection. -/
def failed (w : Writer τ) : Writer τ × Option τ := { w with stage := .broken }.settle

/-- What was wanted is written: the handshake, or the first message. -/
def wrote (w : Writer τ) : Writer τ × Option τ :=
  match w.stage with
  | .greeting => ({ w with stage := .ready }, none)
  | _ => w.settle

/-- What becomes of an item when the connection is closed: a message is lost. -/
def refusal (w : Writer τ) : Outgoing τ → τ × Except ServiceError Unit
  | .message _ ticket => (ticket, .error w.lost)
  | .close ticket => (ticket, .ok ())

/-- The connection is closed, and nothing queued behind that is looked at. -/
def finished (w : Writer τ) : Writer τ := { w with stage := .closed, queue := [] }

end Writer

end Cohort
