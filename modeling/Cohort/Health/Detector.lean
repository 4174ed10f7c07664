import Cohort.Health.Loss
import Cohort.Message.Basic
import Cohort.Schedule.Basic

/-!
The failure detector: the health of every other member of a view. Silence makes a member suspected;
enough missed heartbeats and reports of others together bring a final check; a failed final check
removes it, unless so much of the view is unreachable that the network must be split.

The detector does nothing itself. It takes one event and says what is to be done; its timers are
tasks on a schedule and come back as events.
-/

namespace Cohort

inductive HealthState where
  | alive
  | suspected
  | finalCheck
  /-- Its final check failed; the next view is without it. -/
  | removed
  deriving DecidableEq, Repr

def HealthState.text : HealthState → String
  | .alive => "ALIVE"
  | .suspected => "SUSPECTED"
  | .finalCheck => "FINAL_CHECK"
  | .removed => "REMOVED"

namespace Detector

inductive Event where
  | heartbeatTick
  | heartbeatTimeout (member : Member) (request : UInt64)
  | heartbeatResponse (source : Member) (request : UInt64)
  | suspectReceived (reporter : Member) (suspects : List Suspicion)
  | finalCheckTimeout (member : Member) (request : UInt64)
  | finalCheckResponse (source : Member) (request : UInt64)
  /-- The final check could not even be sent. -/
  | finalCheckFailed (member : Member) (request : UInt64)
  | removeRequested (requester member : Member) (reason : String)
  | viewInstalled (view : View)
  deriving DecidableEq, Repr

inductive Action where
  | sendHeartbeat (target : Member) (request : UInt64)
  | broadcastSuspect (suspect : Member) (reason : String)
  | sendFinalCheck (target : Member) (request : UInt64)
  | requestRemoval (coordinator member : Member) (reason : String)
  | installView (view : View)
  | partitionDetected (unreachable : List Member) (lost total : UInt32)
  deriving DecidableEq, Repr

/-- In which order rounds of heartbeats visit members, each round in its own. What is hashed has no order
to rely on, so any is possible. Rounds are told apart by the number of the timer that comes next. -/
structure Rota where
  order (round : Nat) (members : List Member) : List Member
  perm (round : Nat) (members : List Member) : (order round members).Perm members

/-- Members are visited as they are listed. -/
def Rota.listed : Rota where
  order _ members := members
  perm _ members := .refl members

structure Settings where
  heartbeatInterval : Span
  memberTimeout : Span
  finalCheckTimeout : Span
  suspectThreshold : Nat
  partitionDetection : Bool
  rota : Rota := .listed

/-- A request that waits for its answer, and the timer that ends the wait. -/
structure Outstanding where
  request : UInt64
  timer : Nat
  deriving DecidableEq, Repr

structure Health where
  state : HealthState := .alive
  heartbeat : Option Outstanding := none
  missed : Nat := 0
  /-- The members that reported this one during its suspicion. -/
  reporters : List Member := []
  finalCheck : Option Outstanding := none
  deriving DecidableEq, Repr

/-- Missed heartbeats and reporters together. -/
def Health.corroborations (h : Health) : Nat := h.missed + h.reporters.length

def Health.report (h : Health) (reporter : Member) : Health :=
  if reporter.isIn h.reporters then h else { h with reporters := h.reporters ++ [reporter] }

def Health.timers (h : Health) : List Nat :=
  (h.heartbeat.toList ++ h.finalCheck.toList).map (·.timer)

def Health.withoutRequests (h : Health) : Health := { h with heartbeat := none, finalCheck := none }

/-- Health by member, in the order of identities. -/
abbrev Table := List (Member × Health)

namespace Table

def get? (table : Table) (m : Member) : Option Health := (table.find? (·.1.same m)).map (·.2)

def update (table : Table) (m : Member) (f : Health → Health) : Table :=
  table.map fun (key, h) => if key.same m then (key, f h) else (key, h)

/-- Adds a healthy member, unless it is there already. -/
def enter (m : Member) : Table → Table
  | [] => [(m, {})]
  | (key, h) :: rest =>
    match m.compare key with
    | .lt => (m, {}) :: (key, h) :: rest
    | .eq => (key, h) :: rest
    | .gt => (key, h) :: enter m rest

end Table

end Detector

structure Detector where
  self : Member
  view : View
  health : Detector.Table := []
  settings : Detector.Settings
  policy : LossPolicy
  timers : Schedule Detector.Event := {}
  nextRequest : UInt64 := 1
  tick : Option Nat := none
  /-- Whether a partition is declared; enough answers end it. -/
  partitioned : Bool := false

namespace Detector

/-- Follows the members of a view, those followed already as they are. -/
def track (self : Member) (table : Table) (view : View) : Table :=
  view.members.foldl (fun table m => if m.same self then table else table.enter m) table

def create (self : Member) (view : View) (settings : Settings) (policy : LossPolicy)
    (now : Nat) : Detector where
  self := self
  view := view
  health := track self [] view
  settings := settings
  policy := policy
  timers := { now := now }

def stateOf (d : Detector) (m : Member) : Option HealthState := (d.health.get? m).map (·.state)

def arm (d : Detector) (delay : Span) (event : Event) : Detector × Nat :=
  let (timers, id) := d.timers.arm delay event
  ({ d with timers := timers }, id)

def disarm (d : Detector) (ids : List Nat) : Detector :=
  { d with timers := ids.foldl (fun timers id => (timers.cancel id).1) d.timers }

/-- A number for a request; none is given twice. -/
def request (d : Detector) : Detector × UInt64 :=
  ({ d with nextRequest := d.nextRequest + 1 }, d.nextRequest)

def update (d : Detector) (m : Member) (f : Health → Health) : Detector :=
  { d with health := d.health.update m f }

/-- Cancels the timers of a member's requests and forgets the requests. -/
def cancelRequests (d : Detector) (m : Member) : Detector :=
  match d.health.get? m with
  | none => d
  | some h => (d.disarm h.timers).update m Health.withoutRequests

/-- Arms the next round of heartbeats in place of the one armed. -/
def scheduleTick (d : Detector) (delay : Span) : Detector :=
  let (d, id) := (d.disarm d.tick.toList).arm delay .heartbeatTick
  { d with tick := some id }

def start (d : Detector) : Detector := d.scheduleTick ⟨0⟩

def stop (d : Detector) : Detector :=
  let d := { d.disarm d.tick.toList with tick := none }
  let ids := d.health.flatMap (·.2.timers)
  { d.disarm ids with health := d.health.map fun (key, h) => (key, h.withoutRequests) }

/-- The members in one of some states, as the view describes them and in its order. -/
def membersIn (d : Detector) (states : List HealthState) : List Member :=
  d.view.members.filter fun m =>
    match d.stateOf m with
    | some state => states.contains state
    | none => false

/-- Whom the loss of counts: while a partition is declared, suspected members too. -/
def unreachable (d : Detector) : List Member :=
  if d.partitioned then d.membersIn [.suspected, .finalCheck, .removed]
  else d.membersIn [.finalCheck, .removed]

/-- Goes on with a view that is not older: forgets who is not in it and follows who is new. -/
def install (d : Detector) (view : View) : Detector :=
  if view.id < d.view.id then d
  else
    let gone := d.health.filter (!view.contains ·.1)
    let d := d.disarm (gone.flatMap (·.2.timers))
    let kept := d.health.filter (view.contains ·.1)
    { d with health := track d.self kept view, view := view, partitioned := false }

def beat (d : Detector) (m : Member) : Detector × Action :=
  let (d, request) := d.request
  let (d, timer) := d.arm d.settings.memberTimeout (.heartbeatTimeout m request)
  (d.update m fun h => { h with heartbeat := some ⟨request, timer⟩ }, .sendHeartbeat m request)

/-- Whether a round of heartbeats asks a member. -/
def wantsHeartbeat (h : Health) : Bool :=
  (h.state == .alive || h.state == .suspected) && h.heartbeat.isNone

def beatAll (d : Detector) : List Member → Detector × List Action
  | [] => (d, [])
  | m :: rest =>
    let (d, action) := d.beat m
    let (d, actions) := beatAll d rest
    (d, action :: actions)

/-- Whom the next round of heartbeats asks, in the order of the rota. -/
def addressees (d : Detector) : List Member :=
  d.settings.rota.order d.timers.nextId ((d.health.filter (wantsHeartbeat ·.2)).map (·.1))

/-- One round: a heartbeat to each member that owes no answer and is not checked or removed. -/
def onTick (d : Detector) : Detector × List Action :=
  let (d, actions) := d.beatAll d.addressees
  (d.scheduleTick d.settings.heartbeatInterval, actions)

/-- Checks a member for the last time; its other request is given up. -/
def beginFinalCheck (d : Detector) (m : Member) : Detector × List Action :=
  let (d, request) := d.request
  let (d, timer) := d.arm d.settings.finalCheckTimeout (.finalCheckTimeout m request)
  let d := (d.cancelRequests m).update m fun h =>
    { h with state := .finalCheck, finalCheck := some ⟨request, timer⟩ }
  (d, [.sendFinalCheck m request])

def checkThreshold (d : Detector) (m : Member) : Detector × List Action :=
  match d.health.get? m with
  | none => (d, [])
  | some h =>
    if h.state == .suspected && h.corroborations ≥ d.settings.suspectThreshold
    then d.beginFinalCheck m else (d, [])

/-- Whether a slot waits for the answer to this request. -/
def awaits (slot : Option Outstanding) (request : UInt64) : Bool :=
  match slot with
  | some outstanding => outstanding.request == request
  | none => false

def onHeartbeatTimeout (d : Detector) (m : Member) (request : UInt64) : Detector × List Action :=
  match d.health.get? m with
  | none => (d, [])
  | some h =>
    if !awaits h.heartbeat request then (d, [])
    else
      let fresh := h.state == .alive
      let d := d.update m fun h =>
        { h with
          heartbeat := none
          missed := h.missed + 1
          state := if h.state == .alive then .suspected else h.state }
      let announced := if fresh then [.broadcastSuspect m "heartbeat timed out"] else []
      let (d, actions) := d.checkThreshold m
      (d, announced ++ actions)

def onSuspect (d : Detector) (reporter suspect : Member) : Detector × List Action :=
  if suspect.same d.self then (d, [])
  else match d.health.get? suspect with
    | none => (d, [])
    | some h =>
      if h.state == .finalCheck || h.state == .removed then (d, [])
      else
        let d := d.update suspect fun h => { h.report reporter with state := .suspected }
        d.checkThreshold suspect

def onSuspects (d : Detector) (reporter : Member) : List Suspicion → Detector × List Action
  | [] => (d, [])
  | s :: rest =>
    let (d, actions) := d.onSuspect reporter s.suspect
    let (d, more) := onSuspects d reporter rest
    (d, actions ++ more)

/-- Ends a declared partition once not too much is unreachable. -/
def checkHealed (d : Detector) : Detector :=
  if d.partitioned && !(d.policy.assess d.view d.unreachable).partitioned
  then { d with partitioned := false } else d

/-- A sign of life brings a member back. The answer to a final check counts for that check only;
heartbeats count whichever request they answer. -/
def onResponse (d : Detector) (source : Member) (request : UInt64) (final : Bool) : Detector :=
  match d.health.get? source with
  | none => d
  | some h =>
    if h.state == .removed then d
    else if final && !awaits h.finalCheck request then d
    else
      let answered := !final && awaits h.heartbeat request
      let d := if answered then
          (d.disarm (h.heartbeat.toList.map (·.timer))).update source
            fun h => { h with heartbeat := none }
        else d
      if h.state == .alive then d.update source fun h => { h with missed := 0 }
      else
        let d := d.disarm (h.finalCheck.toList.map (·.timer))
        let d := d.update source fun h =>
          { h with finalCheck := none, state := .alive, missed := 0, reporters := [] }
        d.checkHealed

/-- Puts a member of the far side of a partition back under suspicion. -/
def resuspect (d : Detector) (m : Member) : Detector :=
  (d.cancelRequests m).update m fun h =>
    { h with state := .suspected, missed := 0, reporters := [] }

/-- Removes those whose final check failed: by the next view if this member coordinates without
them, else by asking the one who does. -/
def removeFailed (d : Detector) (failed : List Member) : Detector × List Action :=
  match d.view.coordinatorWithout failed with
  | none => (d, [])
  | some coordinator =>
    if coordinator.same d.self then
      let view := d.view.successor d.self [] [] failed
      (d.install view, [.installView view])
    else (d, failed.map fun m => .requestRemoval coordinator m "failed final check")

/-- Acts on those whose final check failed. When too much of the view is unreachable, nobody is
removed: the unreachable are suspected again and go on being asked. -/
def conclude (d : Detector) : Detector × List Action :=
  let failed := d.membersIn [.removed]
  if failed.isEmpty then (d, [])
  else if d.settings.partitionDetection then
    let unreachable := d.unreachable
    let loss := d.policy.assess d.view unreachable
    if loss.partitioned then
      let news := if d.partitioned then []
        else [.partitionDetected unreachable loss.lost loss.total]
      ({ unreachable.foldl resuspect d with partitioned := true }, news)
    else { d with partitioned := false }.removeFailed failed
  else d.removeFailed failed

def onFinalCheckFailed (d : Detector) (m : Member) (request : UInt64) : Detector × List Action :=
  match d.health.get? m with
  | none => (d, [])
  | some h =>
    if h.state == .finalCheck && awaits h.finalCheck request then
      let d := d.disarm (h.finalCheck.toList.map (·.timer))
      (d.update m fun h => { h with finalCheck := none, state := .removed }).conclude
    else (d, [])

/-- A request to remove a member is a reason to check it, not to remove it. -/
def onRemoveRequested (d : Detector) (requester m : Member) : Detector × List Action :=
  if m.same d.self then (d, [])
  else match d.health.get? m with
    | none => (d, [])
    | some h =>
      match h.state with
      | .alive | .suspected =>
        (d.update m fun h => { h.report requester with state := .suspected }).beginFinalCheck m
      | .finalCheck => (d.update m (·.report requester), [])
      | .removed => (d, [])

def handle (d : Detector) : Event → Detector × List Action
  | .heartbeatTick => d.onTick
  | .heartbeatTimeout m request => d.onHeartbeatTimeout m request
  | .heartbeatResponse source request => (d.onResponse source request false, [])
  | .suspectReceived reporter suspects => d.onSuspects reporter suspects
  | .finalCheckTimeout m request => d.onFinalCheckFailed m request
  | .finalCheckResponse source request => (d.onResponse source request true, [])
  | .finalCheckFailed m request => d.onFinalCheckFailed m request
  | .removeRequested requester m _ => d.onRemoveRequested requester m
  | .viewInstalled view => (d.install view, [])

/-- A timer that runs out does nothing but come back as its event. -/
def ring (_ : Unit) (_ : Schedule Event) (_ : Event) :
    Unit × List (Schedule.Move Event) × Option Empty := ((), [], none)

def expire (d : Detector) : Detector × List Event :=
  let pass := d.timers.runDue ring (d.timers.load (fun _ => 0) + 1) ()
  ({ d with timers := pass.schedule }, pass.ran.map (·.task))

end Detector

end Cohort
