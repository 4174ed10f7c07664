import Cohort.Message.Basic
import Cohort.Span
import Cohort.Wire.Writer

/-!
What a node sends to its group now and then: its name and a number that goes up.
-/

namespace Cohort.Node

structure Ping where
  name : String
  counter : UInt64
  deriving DecidableEq, Repr

namespace Ping

/-- The application type of a ping. -/
def type : UInt16 := 1

/-- The time between two pings. -/
def period : Span := .ofSecs 3

def encode (ping : Ping) : List UInt8 := Wire.text ping.name ++ Wire.word64 ping.counter

def message (ping : Ping) : Message := .of (.application type ping.encode)

end Ping

end Cohort.Node
