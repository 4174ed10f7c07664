import Cohort.Membership.Sending

/-!
Changes of the view. One change at a time is computed from the installed view, installed here, and
handed out to the members of the new view; who wants another waits for that.
-/

namespace Cohort.Manager

def isSelf (self : Member) : Option Member → Bool
  | some m => m.same self
  | none => false

/-- The view with a joiner, if it is not in already and this member still coordinates. -/
def withJoiner (joiner : Member) (current : View) (self : Member) : Option View :=
  if current.contains joiner || !isSelf self current.coordinator then none
  else some (current.successor self [joiner] [] [])

/-- The view without a member that leaves, if this member coordinates once it is gone. -/
def withoutLeaver (leaver : Member) (current : View) (self : Member) : Option View :=
  if !current.contains leaver || !isSelf self (current.coordinatorWithout [leaver]) then none
  else some (current.successor self [] [leaver] [])

/-- The view without those who crashed, as far as they are still in it. -/
def withoutCrashed (crashed : List Member) (current : View) (self : Member) : Option View :=
  let present := crashed.filter (current.contains ·)
  if present.isEmpty then none else some (current.successor self [] [] present)

def withoutSelf (current : View) (self : Member) : Option View :=
  some (current.successor self [] [self] [])

def nextView (change : ViewChange) (current : View) (self : Member) : Option View :=
  match change with
  | .admission joiner => withJoiner joiner current self
  | .departure leaver => withoutLeaver leaver current self
  | .removal crashed => withoutCrashed crashed current self
  | .handover => withoutSelf current self

/-- Who gets the new view in another way than the others. -/
def servedApart : ViewChange → List Member
  | .admission joiner => [joiner]
  | .departure _ | .removal _ | .handover => []

def proposal (m : Manager) (change : ViewChange) : Option View :=
  m.view.bind fun current => nextView change current m.self

def handOut (change : ViewChange) (next : View) : Act Unit := do
  let m ← get
  let recipients := next.members.filter fun r => !r.same m.self && !r.isIn (servedApart change)
  let _ ← deliverAll (recipients.map fun r => ⟨.member r, .of (.installView next)⟩)

/-- Installs a new view, unless it is without this member, and hands it out. -/
def distribute (change : ViewChange) : Option View → Act Unit
  | none => return
  | some next => do
    modify fun m => if next.contains m.self then m.adopt next else m
    handOut change next

/-- What a member does with its turn to change the view. -/
def useTurn (change : ViewChange) : Act Unit := do
  let m ← get
  distribute change (m.proposal change)
  modify (·.notice .turnOver)

/-- Takes a turn to change the view. The change is made to the view installed at that time. -/
def changeView (change : ViewChange) : Act Unit := do
  Procedure.perform (.changeTurn change)
  useTurn change

/-- Admits a joiner, which gets the view with the answer and not before it. -/
def letIn (joiner : Member) : Act JoinAnswer := do
  changeView (.admission joiner)
  match (← get).view with
  | some view =>
    if view.contains joiner then return .accepted view
    else return .rejected "the coordinator changed, retry"
  | none => return .rejected "the coordinator changed, retry"

def activeView (m : Manager) : Option View :=
  match m.phase with
  | .running => m.view
  | _ => none

/-- What a request to join is answered: only the coordinator admits. -/
def joinAnswerFor (joiner : Member) : Act JoinAnswer := do
  let m ← get
  match activeView m with
  | none => return .rejected "not a member of a view"
  | some view =>
    match view.coordinator with
    | some coordinator => if coordinator.same m.self then letIn joiner else return .redirect coordinator
    | none => letIn joiner

end Cohort.Manager
