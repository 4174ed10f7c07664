import Cohort.Message.Codec
import Cohort.Message.Frame

/-!
A connection of the direct channel at the side that accepted it. The first frame names the member
that opened it; every later message speaks for that member, whatever it says of its sender.
-/

namespace Cohort

structure Inbound where
  /-- Who opened the connection, once its first frame said so. -/
  peer : Option Member := none
  /-- Bytes that do not make a whole frame yet. -/
  buffer : List UInt8 := []
  ended : Bool := false
  deriving DecidableEq, Repr

namespace Inbound

inductive Arrival where
  | opening
  | message (message : Message)
  | undecodable
  deriving DecidableEq, Repr

def handshake? (frame : List UInt8) : Option Member :=
  match Codec.decode .current frame with
  | .ok { payload := .handshake identity, .. } => some identity
  | _ => none

/-- Takes one frame: the handshake first, then messages in the schema of both sides. A first frame
that is no handshake ends the connection; a later frame that cannot be decoded is passed over. -/
def take (c : Inbound) (frame : List UInt8) : Inbound × Arrival :=
  match c.peer with
  | none =>
    match handshake? frame with
    | some identity => ({ c with peer := some identity }, .opening)
    | none => ({ c with ended := true }, .opening)
  | some identity =>
    match Codec.decode (Version.current.common identity.version) frame with
    | .ok message => (c, .message { message with sender := some identity })
    | .error _ => (c, .undecodable)

def receive (c : Inbound) (bytes : List UInt8) : Inbound := { c with buffer := c.buffer ++ bytes }

/-- Takes the next whole frame from what has arrived. One too long ends the connection. -/
def next? (c : Inbound) : Inbound × Option (List UInt8) :=
  if c.ended then (c, none)
  else match Frame.next c.buffer with
    | .frame data rest => ({ c with buffer := rest }, some data)
    | .incomplete => (c, none)
    | .tooLong => ({ c with ended := true }, none)

end Inbound

end Cohort
