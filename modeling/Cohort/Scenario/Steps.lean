import Cohort.Json.Report
import Cohort.Json.Scenario

/-!
Scenarios in steps: each step says what to do, and has an answer of its own.
-/

namespace Cohort.Scenario

def finish : Run Json → Json
  | .ok j => j
  | .error (.refused e) => Report.error e
  | .error (.misused fault) => Report.argumentFault fault
  | .error .absent => .obj [("error", .str "NotJoined")]
  | .error (.malformed what) => Report.failure "BadInput" what

def verb (j : Json) : Run String := at_ j "do" text

def members (j : Json) : Run (List Member) := listAt j "members" member

/-- Runs steps one after the other; a failing step leaves the state as it was. -/
def runEach {σ : Type} (step : σ → Json → Run (σ × Json)) : List Json → σ → σ × List Json
  | [], state => (state, [])
  | j :: rest, state =>
    let (state, answer) := match step state j with
      | .ok (next, answer) => (next, answer)
      | .error e => (state, finish (.error e))
    let (state, answers) := runEach step rest state
    (state, answer :: answers)

def runSteps {σ : Type} (j : Json) (state : σ) (step : σ → Json → Run (σ × Json)) : Run Json := do
  let (_, answers) := runEach step (← at_ j "steps" list) state
  return .obj [("steps", .arr answers)]

/-- Stored data, or as many zeros as are asked for. -/
def content (j : Json) : Run (List UInt8) := do
  match ← at? j "data" bytes with
  | some data => return data
  | none => return List.replicate (← at_ j "size" nat) 0

/-- Bytes changed at one place, cut, and followed by more. -/
def altered (j : Json) (data : List UInt8) : Run (List UInt8) := do
  let data ← given j "flip" nat (fun i (d : List UInt8) => d.modify i (· ^^^ 1)) data
  let data ← given j "trunc" nat (fun n (d : List UInt8) => d.take n) data
  given j "append" bytes (fun more d => d ++ more) data

/-- Bytes as a report shows them: in full up to a length, else how many there are. -/
def shown (limit : Nat) (data : List UInt8) : Json :=
  if data.length ≤ limit then .hex data else .nat data.length

def ok : Json := .str "ok"

def outcome : Except ServiceError Unit → Json
  | .ok _ => ok
  | .error e => Report.error e

def transportOutcome : Except TransportFault Unit → Json
  | .ok _ => ok
  | .error fault => Report.transportFault fault

end Cohort.Scenario
