import Cohort.Scenario.Steps
import Cohort.Simulation.Run

/-!
Scenarios on simulated hosts. A scenario has members whose behaviour is scripted, and nodes that its
steps start. A step may begin calls, which can end in later steps.
-/

namespace Cohort.Scenario.Hosts

open Simulation
open Net (Endpoint Ip)

/-- The calls that one step began. -/
structure Begun where
  step : Nat
  calls : List Nat
  /-- Whether the result is the list of all outcomes. -/
  listed : Bool

/-- The fields of a node that a report shows when they change. -/
abbrev Fields := List (String × Json)

structure Stage where
  world : World := {}
  members : List Member := []
  step : Nat := 0
  nextCall : Nat := 0
  begun : List Begun := []
  results : List (Nat × Json) := []
  /-- What the last report showed of each node. -/
  fields : List Fields := []
  posted : Nat := 0

/-- What a step does; a step that fails may have changed something. -/
abbrev Play := ExceptT Failure (StateM Stage)

def sim {α : Type} (x : Sim α) : Play α :=
  modifyGet fun stage =>
    let (a, world) := x.run stage.world
    (a, { stage with world := world })

def answer (j : Json) : Play Unit :=
  modify fun stage => { stage with results := stage.results ++ [(stage.step, j)] }

def calls (count : Nat) (listed : Bool) : Play (List Nat) :=
  modifyGet fun stage =>
    let numbers := (List.range count).map (· + stage.nextCall)
    let begun : Begun := ⟨stage.step, numbers, listed⟩
    (numbers, { stage with
      nextCall := stage.nextCall + count
      begun := stage.begun ++ [begun] })

def begin_ (node : Nat) (works : List Work) (listed : Bool) : Play Unit := do
  let numbers ← calls works.length listed
  for (number, work) in numbers.zip works do sim (call node number work)

/-! ### References -/

/-- Who a node is now, or said it was while it had no identity yet. -/
def identityOf (w : World) (node : Nat) : Run Member := do
  match w.nodes[node]? with
  | none => .error .absent
  | some n =>
    let own := if n.joined && !n.dropped then n.manager.map (·.self) else none
    match own <|> w.greetings.lookup n.host with
    | some m => return m
    | none => .error .absent

/-- A reference is an index, a node, or a description; in a list with a view id it is the member as
that view has it. -/
def lookIn (w : World) (members : List Member) : Lookup := fun j =>
  let plain (j : Json) : Run Member :=
    match j.get? "node" with
    | some n => do identityOf w (← nat n)
    | none => refIn members j
  match j with
  | .arr [r, v] => do return (← plain r).withViewId (← viewId v)
  | j => plain j

def look : Play Lookup := do
  let stage ← get
  return lookIn stage.world stage.members

def nodeIndex (j : Json) : Run Nat := atD j "node" nat 0

def liveNode (j : Json) : Play (Nat × Node) := do
  let index ← nodeIndex j
  match (← get).world.nodes[index]? with
  | some n => if n.kind = .failed || n.dropped then throw .absent else return (index, n)
  | none => throw .absent

end Cohort.Scenario.Hosts
