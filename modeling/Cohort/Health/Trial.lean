import Cohort.Health.Detector

/-!
Runs of a detector without a network: time passes in rounds, and some members answer at once.
-/

namespace Cohort.Detector

/-- Handles events in order. -/
def handleAll (d : Detector) : List Event → Detector × List Action
  | [] => (d, [])
  | event :: rest =>
    let (d, actions) := d.handle event
    let (d, more) := handleAll d rest
    (d, actions ++ more)

/-- The answers to what was sent: to heartbeats from some members, to final checks from others. -/
def answers (prompt final : List Member) (actions : List Action) : List Event :=
  actions.filterMap fun
    | .sendHeartbeat m request => if m.isIn prompt then some (.heartbeatResponse m request) else none
    | .sendFinalCheck m request => if m.isIn final then some (.finalCheckResponse m request) else none
    | _ => none

/-- One round: the clock moves, one pass runs, its events are handled, and what was sent is
answered. -/
def round (d : Detector) (time : Span) (prompt final : List Member) : Detector × List Action :=
  let d := { d with timers := d.timers.advance time }
  let (d, events) := d.expire
  let (d, actions) := d.handleAll events
  let (d, more) := d.handleAll (answers prompt final actions)
  (d, actions ++ more)

def rounds (time : Span) (prompt final : List Member) : Nat → Detector → Detector × List Action
  | 0, d => (d, [])
  | times + 1, d =>
    let (d, actions) := d.round time prompt final
    let (d, more) := rounds time prompt final times d
    (d, actions ++ more)

end Cohort.Detector
