import Cohort.Membership.Sending

/-!
What an application does with its group.
-/

namespace Cohort.Manager

/-- Why the member sends nothing for the application, if it does not. -/
def refusal? (m : Manager) (message : Message) : Option ServiceError :=
  match m.phase with
  | .closed => some .closed
  | .expelled => some (.memberRemoved m.self.text)
  | .joining | .running =>
    if message.kind.isApplication then none else some (.codec (.reserved message.kind))

/-- Sends a message to one member. One that has departed gets none; one that is not in the view may
be in a view that is still to come. -/
def send (recipient : Member) (message : Message) : Act (Except ServiceError Unit) := do
  let m ← get
  match m.refusal? message with
  | some e => return .error e
  | none =>
    if recipient.same m.self then
      Procedure.perform (.handler { message with sender := some m.self })
    else
      match m.view.bind (·.get? recipient) with
      | some known => deliver (.member known) message
      | none =>
        if recipient.isIn m.departed then return .error (.memberRemoved recipient.text)
        else deliver (.member recipient) message

def firstError : List (Except ServiceError Unit) → Except ServiceError Unit
  | [] => .ok ()
  | .ok _ :: rest => firstError rest
  | .error e :: _ => .error e

/-- Sends a message to every other member of the view; every one is tried. -/
def broadcast (message : Message) : Act (Except ServiceError Unit) := do
  let m ← get
  match m.refusal? message with
  | some e => return .error e
  | none =>
    match m.view with
    | none => return .error .closed
    | some view =>
      if m.channel.isNone then return .error (.config .channelDisabled)
      else
        let others := view.members.filter (!·.same m.self)
        return firstError (← deliverAll (others.map fun r => ⟨.member r, message⟩))

end Cohort.Manager
