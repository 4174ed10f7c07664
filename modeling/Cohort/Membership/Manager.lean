import Cohort.Actor.Basic
import Cohort.Config
import Cohort.Health.Detector
import Cohort.Membership.Procedure
import Cohort.Statistics.Basic

/-!
One member of a group and what it holds: its own identity, the view it has installed, who has
departed, and the health of the others. This module has the steps that are never interrupted; the
procedures that are made of them are in the modules beside it.
-/

namespace Cohort

/-- A member's life, which only goes forward. -/
inductive Phase where
  | joining
  | running
  /-- The others removed it from the view. -/
  | expelled
  | closed
  deriving DecidableEq, Repr

inductive Errand where
  | heartbeat (target : Member) (request : UInt64)
  | suspicion (view : View) (suspect : Member) (reason : String)
  | finalCheck (target : Member) (request : UInt64)
  | removal (coordinator member : Member) (reason : String)
  deriving DecidableEq, Repr

/-- What a piece of work gives rise to outside of it, in order. -/
inductive Notice where
  | event (event : View.Event)
  | errand (errand : Errand)
  /-- Connections to these addresses are to end, whatever becomes of the member. -/
  | parting (addresses : List Net.Endpoint)
  | actor (actor : ActorName)
  | joinAnswer
  | turnOver
  | deafened
  | closed
  deriving DecidableEq, Repr

structure Manager where
  config : Config
  policy : LossPolicy
  rota : Detector.Rota := .listed
  /-- The member's own identity; it gets its view id with the first view. -/
  self : Member
  /-- The member's own endpoint of the direct channel, if it has the channel. -/
  channel : Option Net.Endpoint := none
  phase : Phase := .joining
  view : Option View := none
  /-- Who crashed or left in a view installed here. -/
  departed : List Member := []
  detector : Option Detector := none
  watch : Actor Detector.Event := {}
  /-- Whether events for the failure detector are still taken. -/
  watched : Bool := true
  pulse : Actor Empty := {}
  expectsAnswer : Bool := false
  answers : List JoinAnswer := []
  listening : Bool := true
  closing : Closing := .never
  statistics : Statistics := {}
  now : Nat := 0
  notices : List Notice := []

abbrev Act := Procedure Manager

namespace Manager

def notice (m : Manager) (n : Notice) : Manager := { m with notices := m.notices ++ [n] }

def count (m : Manager) (c : Counter) : Manager := { m with statistics := m.statistics.count c }

def coordinator? (m : Manager) : Option Member := m.view.bind (·.coordinator)

def healthOf (m : Manager) (member : Member) : Option HealthState :=
  m.detector.bind (·.stateOf member)

/-- Queues an event for the failure detector; without its actor the event is lost. -/
def feed (m : Manager) (event : Detector.Event) : Manager :=
  if m.watched then { m with watch := (m.watch.send event).1 }.notice (.actor .watch) else m

def clocked (m : Manager) (d : Detector) : Detector :=
  { d with timers := { d.timers with now := m.now } }

def detectorSettings (m : Manager) : Detector.Settings where
  heartbeatInterval := m.config.heartbeatInterval
  memberTimeout := m.config.memberTimeout
  finalCheckTimeout := m.config.finalCheckTimeout
  suspectThreshold := m.config.suspectThreshold.toNat
  partitionDetection := m.config.partitionDetection
  rota := m.rota

def startDetector (m : Manager) (view : View) : Manager :=
  if m.watched then
    { m with detector := some (Detector.create m.self view m.detectorSettings m.policy m.now).start }
  else m

def stopDetector (m : Manager) : Manager := { m with detector := none }

/-- One pass of the schedule: hands over the events whose time has come. -/
def pass (m : Manager) : Manager :=
  match m.detector with
  | none => m
  | some d =>
    let (d, events) := (m.clocked d).expire
    events.foldl feed { m with detector := some d }

/-- The member gets the identity that the view has of it. -/
def resolved (m : Manager) (view : View) : Manager :=
  { m with self := (view.get? m.self).getD m.self }

/-- What a new view means for the member: who is gone, whom to watch, and whose connections end. -/
def installed (m : Manager) (previous : Option View) (view : View) : Manager :=
  let m := m.resolved view
  let m := { m with
    departed := m.departed ++ view.crashed ++ view.shutdown
    statistics := ((m.statistics.count .viewsInstalled).add .membersCrashed
      view.crashed.length).add .membersDeparted view.shutdown.length }
  let m := match previous with
    | none => m.startDetector view
    | some _ => m.feed (.viewInstalled view)
  let m := (view.diff previous).foldl (fun m e => m.notice (.event e)) m
  match previous, m.channel with
  | some previous, some _ =>
    let gone := previous.members.filter (!view.contains ·)
    let addresses := gone.filterMap (·.directAddress?)
    if addresses.isEmpty then m else m.notice (.parting addresses)
  | _, _ => m

def expel (m : Manager) (view : View) : Manager :=
  match m.phase with
  | .joining | .running =>
    { m.stopDetector with phase := .expelled }.notice (.event (.expelled view))
  | .expelled | .closed => m

/-- Installs a view that is newer than the installed one. A newer view without this member expels
it, if it ever was in one. -/
def adopt (m : Manager) (view : View) : Manager :=
  match m.view with
  | some current =>
    if view.id ≤ current.id then m
    else if view.contains m.self then { m with view := some view }.installed (some current) view
    else m.expel view
  | none =>
    if view.contains m.self then { m with view := some view }.installed none view else m

end Manager

end Cohort
