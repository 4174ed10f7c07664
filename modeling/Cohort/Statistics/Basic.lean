/-!
Counters of one member's traffic. They wrap at 64 bits and nothing is decided by them.
-/

namespace Cohort

inductive Counter where
  | heartbeatRequestsSent
  | heartbeatRequestsReceived
  | heartbeatResponsesSent
  | heartbeatResponsesReceived
  | suspectsSent
  | suspectsReceived
  | finalCheckRequestsSent
  | finalCheckRequestsReceived
  | finalCheckResponsesSent
  | finalCheckResponsesReceived
  | handshakeRetransmits
  | messagesSent
  | messagesReceived
  | bytesSent
  | bytesReceived
  | viewsInstalled
  | membersCrashed
  | membersDeparted
  | partitionsDetected
  | serializations
  | serializationNanos
  | deserializations
  | deserializationNanos
  deriving DecidableEq, Repr

namespace Counter

/-- All counters, in the order in which they are reported. -/
def all : List Counter := [
  heartbeatRequestsSent, heartbeatRequestsReceived, heartbeatResponsesSent,
  heartbeatResponsesReceived, suspectsSent, suspectsReceived, finalCheckRequestsSent,
  finalCheckRequestsReceived, finalCheckResponsesSent, finalCheckResponsesReceived,
  handshakeRetransmits, messagesSent, messagesReceived, bytesSent, bytesReceived, viewsInstalled,
  membersCrashed, membersDeparted, partitionsDetected, serializations, serializationNanos,
  deserializations, deserializationNanos]

def name : Counter → String
  | heartbeatRequestsSent => "heartbeat_requests_sent"
  | heartbeatRequestsReceived => "heartbeat_requests_received"
  | heartbeatResponsesSent => "heartbeat_responses_sent"
  | heartbeatResponsesReceived => "heartbeat_responses_received"
  | suspectsSent => "suspects_sent"
  | suspectsReceived => "suspects_received"
  | finalCheckRequestsSent => "final_check_requests_sent"
  | finalCheckRequestsReceived => "final_check_requests_received"
  | finalCheckResponsesSent => "final_check_responses_sent"
  | finalCheckResponsesReceived => "final_check_responses_received"
  | handshakeRetransmits => "handshake_retransmits"
  | messagesSent => "messages_sent"
  | messagesReceived => "messages_received"
  | bytesSent => "bytes_sent"
  | bytesReceived => "bytes_received"
  | viewsInstalled => "views_installed"
  | membersCrashed => "members_crashed"
  | membersDeparted => "members_departed"
  | partitionsDetected => "partitions_detected"
  | serializations => "serializations"
  | serializationNanos => "serialization_nanos"
  | deserializations => "deserializations"
  | deserializationNanos => "deserialization_nanos"

def ofName? (name : String) : Option Counter := all.find? (·.name == name)

/-- Whether the counter measures time, not events. -/
def isTime : Counter → Bool
  | serializationNanos | deserializationNanos => true
  | _ => false

end Counter

/-- The counters that are not zero, each once. -/
structure Statistics where
  counts : List (Counter × UInt64) := []
  deriving DecidableEq, Repr, Inhabited

namespace Statistics

def get (s : Statistics) (c : Counter) : UInt64 := (s.counts.lookup c).getD 0

def addTo (c : Counter) (n : UInt64) : List (Counter × UInt64) → List (Counter × UInt64)
  | [] => [(c, n)]
  | (d, m) :: rest => if c = d then (d, m + n) :: rest else (d, m) :: addTo c n rest

def add (s : Statistics) (c : Counter) (n : Nat) : Statistics := ⟨addTo c n.toUInt64 s.counts⟩

def count (s : Statistics) (c : Counter) : Statistics := s.add c 1

def messageSent (s : Statistics) (bytes : Nat) : Statistics :=
  (s.count .messagesSent).add .bytesSent bytes

def messageReceived (s : Statistics) (bytes : Nat) : Statistics :=
  (s.count .messagesReceived).add .bytesReceived bytes

end Statistics

end Cohort
