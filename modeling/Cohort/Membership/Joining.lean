import Cohort.Membership.Sending

/-!
How a member gets into a group: it asks its locators in order for admission, follows them to the
coordinator, and founds a group of its own if none lets it in.
-/

namespace Cohort.Manager

/-- A look at the answers: the first of those that are there, or the end of the waiting if the member
was closed or is `late`. -/
def hearAnswer (m : Manager) (late : Bool) : Manager × Option JoinOutcome :=
  match m.answers with
  | a :: rest => ({ m with answers := rest }, some (.answered a))
  | [] => (m, if !m.expectsAnswer then some .closed else if late then some .silence else none)

def maxRedirects : Nat := 3

/-- Asks whoever listens at an address for admission, following up to `redirects` redirections. -/
def joinThrough (redirects : Nat) (target : Net.Endpoint) :
    Act (Except ServiceError (Option View)) := do
  let m ← get
  match ← deliver (.address target) (.of (.joinRequest m.self)) with
  | .error e => return .error e
  | .ok _ =>
    match ← Procedure.perform (.joinAnswer m.config.joinTimeout) with
    | .closed => return .error .closed
    | .silence => return .ok none
    | .answered (.accepted view) => return .ok (some view)
    | .answered (.rejected _) => return .ok none
    | .answered (.redirect coordinator) =>
      match coordinator.directAddress? with
      | none => return .error (.invalidMember (.noDirectChannel coordinator.text))
      | some next =>
        match redirects with
        | 0 => return .ok none
        | redirects + 1 => joinThrough redirects next

def joinThroughEach : List Net.Endpoint → Act (Except ServiceError (Option View))
  | [] => return .ok none
  | locator :: rest => do
    match ← joinThrough maxRedirects locator with
    | .ok (some view) => return .ok (some view)
    | .error .closed => return .error .closed
    | .ok none | .error _ => joinThroughEach rest

def joinThroughLocators : Act (Except ServiceError (Option View)) := do
  let m ← get
  let locators := m.config.locators.filter fun address => m.channel ≠ some address
  if locators.isEmpty then return .ok none
  else
    set { m with expectsAnswer := true, answers := [] }
    match ← joinThroughEach locators with
    | .error e => return .error e
    | .ok view =>
      modify fun m => { m with expectsAnswer := false, answers := [] }
      return .ok view

/-- Gets into a group, if need be into a new one. -/
def enterGroup : Act (Except ServiceError Unit) := do
  match ← joinThroughLocators with
  | .error e => return .error e
  | .ok view =>
    modify fun m =>
      let m := m.adopt (view.getD (View.initial m.self))
      if m.phase == .joining then { m with phase := .running } else m
    return .ok ()

end Cohort.Manager
