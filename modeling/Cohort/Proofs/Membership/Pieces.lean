import Cohort.Proofs.Membership.Growth
import Cohort.Proofs.Membership.Turns

/-! What every piece of a member's work keeps to. A piece lets the state grow; it asks for a turn to
change the view only with a change that is decided on the state it began in; and what it does with
the turn is to make that change, before anything else. -/

namespace Cohort

namespace Procedure

variable {σ α β γ : Type}

theorem bind_assoc (p : Procedure σ α) (f : α → Procedure σ β) (g : β → Procedure σ γ) :
    (p.bind f).bind g = p.bind fun a => (f a).bind g := by
  induction p with
  | done result => rfl
  | read next ih => exact congrArg Procedure.read (funext fun s => ih s)
  | write s next ih => exact congrArg (Procedure.write s) ih
  | await effect next ih => exact congrArg (Procedure.await effect) (funext fun answer => ih answer)

theorem bind_done (p : Procedure σ α) : p.bind .done = p := by
  induction p with
  | done result => rfl
  | read next ih => exact congrArg Procedure.read (funext fun s => ih s)
  | write s next ih => exact congrArg (Procedure.write s) ih
  | await effect next ih => exact congrArg (Procedure.await effect) (funext fun answer => ih answer)

/-- The first piece of what two procedures do one after the other. -/
theorem run_bind (p : Procedure σ α) (f : α → Procedure σ β) (s : σ) :
    (p.bind f).run s = match p.run s with
      | (t, .done a) => (f a).run t
      | (t, .waiting effect next) => (t, .waiting effect fun answer => (next answer).bind f) := by
  induction p generalizing s with
  | done result => rfl
  | read next ih => exact ih s s
  | write t next ih => exact ih t
  | await effect next ih => rfl

end Procedure

/-- Whether an effect is the turn to change the view. -/
def Effect.isTurn : Effect → Bool
  | .changeTurn _ => true
  | _ => false

namespace Manager

variable {α β : Type}

/-- A piece of work that began in a state may ask for this. -/
def MayAsk (began : Manager) : Effect → Prop
  | .changeTurn change => began.Sound → Decided change (began.basis change) began.self
  | _ => True

/-- Work that was given a turn uses it first of all. -/
def Honours (effect : Effect) (next : effect.Answer → Act α) : Prop :=
  match effect, next with
  | .changeTurn change, next => ∃ rest : Unit → Act α, next () = (useTurn change).bind rest
  | _, _ => True

/-- What is left of a piece that began in one state and has come to another keeps to the rules, and so
do all the pieces after it, whatever state they begin in. -/
inductive Lawful : (began m : Manager) → Act α → Prop where
  | done {began m : Manager} (result : α) : Lawful began m (.done result)
  | read {began m : Manager} {next : Manager → Act α} :
      Lawful began m (next m) → Lawful began m (.read next)
  | write {began m n : Manager} {next : Act α} :
      Grows m n → Lawful began n next → Lawful began m (.write n next)
  | await {began m : Manager} {effect : Effect} {next : effect.Answer → Act α} :
      began.MayAsk effect → Honours effect next → (∀ answer n, Lawful n n (next answer)) →
      Lawful began m (.await effect next)

section
variable {began m : Manager}

theorem honours_bind {effect : Effect} {next : effect.Answer → Act α} (honours : Honours effect next)
    (f : α → Act β) : Honours effect fun answer => (next answer).bind f := by
  cases effect with
  | changeTurn change =>
    obtain ⟨rest, same⟩ := honours
    refine ⟨fun a => (rest a).bind f, ?_⟩
    dsimp only
    rw [same, Procedure.bind_assoc]
  | _ => trivial

theorem lawful_bind {p : Act α} {f : α → Act β} (first : Lawful began m p)
    (later : ∀ a b n, Lawful b n (f a)) : Lawful began m (p >>= f) := by
  change Lawful began m (p.bind f)
  induction first with
  | done result => exact later result _ _
  | read _ ih => exact .read ih
  | write grows _ ih => exact .write grows ih
  | await asks honours _ ih => exact .await asks (honours_bind honours f) ih

theorem lawful_pure (a : α) : Lawful began m (pure a) := .done a

theorem lawful_get_bind {f : Manager → Act β} (next : Lawful began m (f m)) :
    Lawful began m (get >>= f) := by
  change Lawful began m (.read fun s => f s)
  exact .read next

theorem lawful_modify_bind {f : Manager → Manager} {p : Unit → Act β} (grows : Grows m (f m))
    (next : Lawful began (f m) (p ())) : Lawful began m (modify f >>= p) := by
  change Lawful began m (.read fun s => .write (f s) (p ()))
  exact .read (.write grows next)

theorem lawful_modify {f : Manager → Manager} (grows : Grows m (f m)) :
    Lawful began m (modify f : Act Unit) := by
  change Lawful began m (.read fun s => .write (f s) (.done ()))
  exact .read (.write grows (.done ()))

theorem lawful_set_bind {n : Manager} {p : Unit → Act β} (grows : Grows m n)
    (next : Lawful began n (p ())) : Lawful began m (set n >>= p) := by
  change Lawful began m (.write n (p ()))
  exact .write grows next

theorem lawful_ite {c : Prop} [Decidable c] {p q : Act α} (yes : c → Lawful began m p)
    (no : ¬c → Lawful began m q) : Lawful began m (if c then p else q) := by
  by_cases holds : c
  · rw [if_pos holds]
    exact yes holds
  · rw [if_neg holds]
    exact no holds

/-- Waiting for anything but a turn is within the rules. -/
theorem lawful_perform (effect : Effect) (other : effect.isTurn = false) :
    Lawful began m (Procedure.perform effect : Act effect.Answer) := by
  cases effect with
  | changeTurn change => contradiction
  | _ => exact .await trivial trivial fun answer n => .done answer

/-- One piece lets the state grow, and leaves work that keeps to the rules. -/
theorem run_lawful {p : Act α} (lawful : Lawful began m p) : Grows m (p.run m).1 ∧
    ∀ effect next, (p.run m).2 = .waiting effect next →
      began.MayAsk effect ∧ Honours effect next ∧ ∀ answer n, Lawful n n (next answer) := by
  induction lawful with
  | done result => exact ⟨.refl _, fun effect next stops => by simp [Procedure.run] at stops⟩
  | read _ ih => exact ih
  | write grows _ ih => exact ⟨grows.trans ih.1, ih.2⟩
  | await asks honours goesOn =>
    refine ⟨.refl _, fun other rest stops => ?_⟩
    cases stops
    exact ⟨asks, honours, goesOn⟩

end

/-! ### Sending -/

section
variable (b m : Manager)

theorem lawful_encode (version : Version) (message : Message) :
    Lawful b m (encode version message) := by
  unfold encode
  split
  · exact lawful_pure _
  · exact lawful_modify_bind (count_alike m _).grows (lawful_pure _)

theorem lawful_sent (size : Nat) (result : Except TransportFault Unit) :
    Lawful b m (sent size result) := by
  unfold sent
  split
  · exact lawful_modify_bind (Alike.grows ⟨rfl, rfl, rfl⟩) (lawful_pure _)
  · exact lawful_pure _

theorem lawful_sendDatagram (target : Member) (payload : Payload) :
    Lawful b m (sendDatagram target payload) := by
  unfold sendDatagram
  refine lawful_get_bind ?_
  refine lawful_bind (lawful_encode b m _ _) fun encoded b n => ?_
  cases encoded with
  | error e => exact lawful_pure _
  | ok data => exact lawful_bind (lawful_perform _ rfl) fun result b n => lawful_sent b n _ _

theorem lawful_sendMulticast (version : Version) (payload : Payload) :
    Lawful b m (sendMulticast version payload) := by
  unfold sendMulticast
  refine lawful_get_bind ?_
  refine lawful_bind (lawful_encode b m _ _) fun encoded b n => ?_
  cases encoded with
  | error e => exact lawful_pure _
  | ok data => exact lawful_bind (lawful_perform _ rfl) fun result b n => lawful_sent b n _ _

theorem lawful_deliverAll (deliveries : List Delivery) : Lawful b m (deliverAll deliveries) := by
  unfold deliverAll
  refine lawful_get_bind (lawful_ite (fun _ => lawful_pure _) fun _ => ?_)
  exact lawful_ite (fun _ => lawful_pure _) fun _ => lawful_perform _ rfl

theorem lawful_deliver (recipient : Recipient) (message : Message) :
    Lawful b m (deliver recipient message) := by
  unfold deliver
  refine lawful_bind (lawful_deliverAll b m _) fun results b n => ?_
  split <;> exact lawful_pure _

theorem lawful_sendDirect (target : Member) (payload : Payload) :
    Lawful b m (sendDirect target payload) := lawful_deliver b m _ _

end

end Manager

end Cohort
