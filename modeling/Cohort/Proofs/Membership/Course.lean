import Cohort.Proofs.Membership.Procedures

/-! Runs of a member. Any of its works may begin at any time, and those that wait go on in any order
with any answers, one piece after the other; the turn to change the view goes to whoever, and even
to several at once. Others may give up a work that waits, and change what the member does not decide
itself. -/

namespace Cohort.Manager

/-- What a member can be set to do. -/
inductive Undertaking where
  | start
  | leave
  | close
  | datagram (source : Net.Endpoint) (data : List UInt8)
  /-- A message of the protocol from the direct channel. -/
  | direct (message : Message)
  | detectorEvent (event : Detector.Event)
  | errand (e : Errand)
  | send (recipient : Member) (message : Message)
  | broadcast (message : Message)

def Undertaking.procedure : Undertaking → Act Unit
  | .start => do let _ ← Manager.start
  | .leave => do let _ ← Manager.leave
  | .close => Manager.close
  | .datagram source data => do let _ ← onDatagram source data
  | .direct message => do let _ ← onDirect message
  | .detectorEvent event => onDetectorEvent event
  | .errand e => run e
  | .send recipient message => do let _ ← Manager.send recipient message
  | .broadcast message => do let _ ← Manager.broadcast message

/-- Work that waits, and the view that it decided on if it waits for a turn. -/
structure Work where
  effect : Effect
  next : effect.Answer → Act Unit
  basis : Option View

/-- A view that was made, with what it was made of. -/
structure Production where
  change : ViewChange
  /-- The member as it was then. -/
  self : Member
  phase : Phase
  current : View
  next : View
  basis : Option View
  deriving DecidableEq

/-- A member with its works and all the views that it made. -/
structure Course where
  manager : Manager
  works : List Work := []
  made : List Production := []

namespace Course

/-- What may happen next. -/
inductive Move where
  | begin (undertaking : Undertaking)
  | resume (index : Nat) (answer : (effect : Effect) → effect.Answer)
  | abandon (index : Nat)
  | pass
  | outside (now : Nat) (watch : Actor Detector.Event) (pulse : Actor Empty)
      (answers : List JoinAnswer) (statistics : Statistics) (notices : List Notice)

/-- A member that has just come into being. -/
def fresh (config : Config) (policy : LossPolicy) (self : Member) (channel : Option Net.Endpoint)
    (rota : Detector.Rota := .listed) : Course where
  manager := { config, policy, self, channel, rota }

/-- The view that work makes when it goes on, if it was waiting for a turn. -/
def product (m : Manager) (w : Work) : Option Production :=
  match w.effect with
  | .changeTurn change =>
    match m.view with
    | some current => (nextView change current m.self).map fun next =>
      ⟨change, m.self, m.phase, current, next, w.basis⟩
    | none => none
  | _ => none

/-- What a work that asks for an effect decided on. -/
def basisOf (m : Manager) : Effect → Option View
  | .changeTurn change => m.basis change
  | _ => none

/-- One piece of a procedure runs. -/
def piece (c : Course) (p : Act Unit) : Course :=
  match (p.run c.manager).2 with
  | .done _ => { c with manager := (p.run c.manager).1 }
  | .waiting effect next =>
    { c with
      manager := (p.run c.manager).1
      works := c.works ++ [⟨effect, next, basisOf c.manager effect⟩] }

def without (c : Course) (index : Nat) : Course := { c with works := c.works.eraseIdx index }

def record (c : Course) (made : Option Production) : Course :=
  { c with made := c.made ++ made.toList }

def move (c : Course) : Move → Course
  | .begin undertaking => c.piece undertaking.procedure
  | .resume index answer =>
    match c.works[index]? with
    | none => c
    | some w =>
      ((c.without index).piece (w.next (answer w.effect))).record (product c.manager w)
  | .abandon index => c.without index
  | .pass => { c with manager := c.manager.pass }
  | .outside now watch pulse answers statistics notices =>
    { c with manager := { c.manager with now, watch, pulse, answers, statistics, notices } }

def after (c : Course) : List Move → Course
  | [] => c
  | x :: rest => (c.move x).after rest

end Course

/-! ### What holds in every run -/

theorem lawful_procedure (m : Manager) (undertaking : Undertaking) :
    Lawful m m undertaking.procedure := by
  cases undertaking with
  | start => exact lawful_bind (lawful_start m m) fun _ b n => lawful_pure _
  | leave => exact lawful_bind (lawful_leave m) fun _ b n => lawful_pure _
  | close => exact lawful_close m m
  | datagram source data =>
    exact lawful_bind (lawful_onDatagram m m source data) fun _ b n => lawful_pure _
  | direct message => exact lawful_bind (lawful_onDirect m m message) fun _ b n => lawful_pure _
  | detectorEvent event => exact lawful_onDetectorEvent m event
  | errand e => exact lawful_run m m e
  | send recipient message =>
    exact lawful_bind (lawful_send m m recipient message) fun _ b n => lawful_pure _
  | broadcast message =>
    exact lawful_bind (lawful_broadcast m m message) fun _ b n => lawful_pure _

/-- Work that waits keeps to the rules when it goes on, and has decided what it is to do. -/
structure Work.Pending (w : Work) (owner : Member) : Prop where
  honours : Honours w.effect w.next
  lawful : ∀ answer n, Lawful n n (w.next answer)
  decided : ∀ change, w.effect = .changeTurn change → Decided change w.basis owner

/-- A view after which the member may still have the one before it: one without the member, or one
whose number starts over. -/
def Production.Ends (p : Production) : Prop :=
  p.change = .handover ∨ p.current.id = View.lastId

instance (p : Production) : Decidable p.Ends :=
  inferInstanceAs (Decidable (p.change = .handover ∨ p.current.id = View.lastId))

/-- A view that was made by the change that was decided on. -/
structure Production.Proper (p : Production) : Prop where
  decided : Decided p.change p.basis p.self
  made : nextView p.change p.current p.self = some p.next
  present : p.current.contains p.self = true

/-- What every move of a member keeps. -/
structure Course.Kept (c : Course) : Prop where
  sound : c.manager.Sound
  pending : ∀ w ∈ c.works, w.Pending c.manager.self
  proper : ∀ p ∈ c.made, p.Proper
  ahead : ∀ p ∈ c.made, ¬ p.Ends → ∃ v, c.manager.view = some v ∧ p.current.id < v.id
  apart : c.made.Pairwise fun p q => ¬ p.Ends → p.current.id < q.current.id

namespace Course

section
variable {c : Course}

theorem kept_fresh (config : Config) (policy : LossPolicy) (self : Member)
    (channel : Option Net.Endpoint) (rota : Detector.Rota) :
    (fresh config policy self channel rota).Kept where
  sound := ⟨fun v known => by simp [fresh] at known, fun d known => by simp [fresh] at known⟩
  pending := by simp [fresh]
  proper := by simp [fresh]
  ahead := by simp [fresh]
  apart := .nil

theorem pending_grows {w : Work} {m n : Manager} (pending : w.Pending m.self) (grows : Grows m n) :
    w.Pending n.self where
  honours := pending.honours
  lawful := pending.lawful
  decided change waits := by
    refine decided_congr ?_ (pending.decided change waits)
    rw [Member.same_comm]
    exact grows.self

theorem kept_grows {m : Manager} (kept : c.Kept) (grows : Grows c.manager m) :
    ({ c with manager := m } : Course).Kept where
  sound := grows.sound kept.sound
  pending w member := pending_grows (kept.pending w member) grows
  proper := kept.proper
  ahead p member goesOn := by
    obtain ⟨v, known, newer⟩ := kept.ahead p member goesOn
    obtain ⟨u, found, further⟩ := grows.view v known
    refine ⟨u, found, ?_⟩
    rcases further with rfl | later
    · exact newer
    · exact Int32.lt_trans newer later
  apart := kept.apart

theorem kept_without (kept : c.Kept) (index : Nat) : (c.without index).Kept where
  sound := kept.sound
  pending w member := kept.pending w (List.mem_of_mem_eraseIdx member)
  proper := kept.proper
  ahead := kept.ahead
  apart := kept.apart

theorem kept_piece {p : Act Unit} (kept : c.Kept) (lawful : Lawful c.manager c.manager p) :
    (c.piece p).Kept := by
  obtain ⟨grows, stops⟩ := run_lawful lawful
  have goesOn := kept_grows kept grows
  unfold piece
  cases stop : (p.run c.manager).2 with
  | done result => exact goesOn
  | waiting effect next =>
    obtain ⟨asks, honours, later⟩ := stops effect next stop
    refine ⟨goesOn.sound, fun w member => ?_, goesOn.proper, goesOn.ahead, goesOn.apart⟩
    rcases List.mem_append.mp member with old | new
    · exact goesOn.pending w old
    · rw [List.mem_singleton.mp new]
      refine ⟨honours, later, fun change waits => ?_⟩
      have waits : effect = .changeTurn change := waits
      subst waits
      refine decided_congr ?_ (asks kept.sound)
      rw [Member.same_comm]
      exact grows.self

/-- Whoever uses a turn to make a view that it stays in has that view or a newer one from then on. -/
theorem useTurn_ahead {m : Manager} {change : ViewChange} {rest : Unit → Act Unit} {current next : View}
    (lawful : Lawful m m ((useTurn change).bind rest)) (known : m.view = some current)
    (proposes : m.proposal change = some next) (stays : next.contains m.self = true)
    (newer : current.id < next.id) :
    ∃ v, (((useTurn change).bind rest).run m).1.view = some v ∧ current.id < v.id := by
  let tail : Act Unit :=
    ((handOut change next).bind fun _ => modify (·.notice .turnOver)).bind rest
  have begins : (useTurn change).bind rest = .read fun n =>
      ((distribute change (n.proposal change)).bind fun _ => modify (·.notice .turnOver)).bind rest :=
    rfl
  have adopts : ((distribute change (some next)).bind fun _ => modify (·.notice .turnOver)).bind rest =
      .read fun n => .write (if next.contains n.self then n.adopt next else n) tail := rfl
  have runs : ((useTurn change).bind rest).run m = tail.run (m.adopt next) := by
    simp only [begins, Procedure.run, proposes, adopts, stays, if_true]
  have later : Lawful m (m.adopt next) tail := by
    rw [begins] at lawful
    cases lawful with
    | read first =>
      dsimp only at first
      rw [proposes, adopts] at first
      cases first with
      | read second =>
        cases second with
        | write _ third => simpa only [stays, if_true] using third
  obtain ⟨v, found, ahead⟩ := (run_lawful later).1.view next (adopt_view known newer stays)
  rw [runs]
  refine ⟨v, found, ?_⟩
  rcases ahead with rfl | further
  · exact newer
  · exact Int32.lt_trans newer further

theorem piece_fields (c : Course) (p : Act Unit) :
    (c.piece p).manager = (p.run c.manager).1 ∧ (c.piece p).made = c.made := by
  unfold piece
  split <;> exact ⟨rfl, rfl⟩

theorem product_some {m : Manager} {w : Work} {p : Production} (made : product m w = some p) :
    w.effect = .changeTurn p.change ∧ m.view = some p.current ∧ p.self = m.self ∧
      p.basis = w.basis ∧ nextView p.change p.current p.self = some p.next := by
  unfold product at made
  split at made
  · rename_i change waits
    split at made
    · rename_i current known
      obtain ⟨next, makes, rfl⟩ := Option.map_eq_some_iff.mp made
      exact ⟨waits, known, rfl, rfl, makes⟩
    · contradiction
  · contradiction

/-- The view that is recorded is the one that is distributed. -/
theorem product_next {m : Manager} {w : Work} {change : ViewChange} (turn : w.effect = .changeTurn change) :
    (product m w).map (·.next) = m.proposal change := by
  unfold product proposal
  rw [turn]
  cases m.view with
  | none => rfl
  | some current =>
    simp only [Option.map_map, Option.bind_some]
    exact Option.map_id'

theorem kept_record {made : Option Production} (kept : c.Kept) (proper : ∀ p ∈ made, p.Proper)
    (ahead : ∀ p ∈ made, ¬ p.Ends → ∃ v, c.manager.view = some v ∧ p.current.id < v.id)
    (later : ∀ p ∈ made, ∀ q ∈ c.made, ¬ q.Ends → q.current.id < p.current.id) :
    (c.record made).Kept := by
  have recorded : ∀ {p}, p ∈ (c.record made).made → p ∈ c.made ∨ p ∈ made := fun member =>
    (List.mem_append.mp member).imp_right Option.mem_toList.mp
  refine ⟨kept.sound, kept.pending, fun p member => ?_, fun p member => ?_, ?_⟩
  · exact (recorded member).elim (kept.proper p) (proper p)
  · exact (recorded member).elim (kept.ahead p) (ahead p)
  · refine List.pairwise_append.mpr ⟨kept.apart, ?_, fun q old p new => ?_⟩
    · cases made <;> simp
    · exact later p (Option.mem_toList.mp new) q old

theorem proper_product {w : Work} {p : Production} (kept : c.Kept) (pending : w.Pending c.manager.self)
    (produced : product c.manager w = some p) : p.Proper := by
  obtain ⟨turn, known, self, basis, makes⟩ := product_some produced
  refine ⟨?_, makes, ?_⟩
  · rw [basis, self]
    exact pending.decided p.change turn
  · rw [self]
    exact kept.sound.present _ known

/-- Work that makes a view leaves that view or a newer one installed, unless the view ends there. -/
theorem product_ahead {w : Work} {p : Production} (kept : c.Kept) (pending : w.Pending c.manager.self)
    (produced : product c.manager w = some p) (goesOn : ¬ p.Ends) (answer : w.effect.Answer) :
    ∃ v, ((w.next answer).run c.manager).1.view = some v ∧ p.current.id < v.id := by
  obtain ⟨turn, known, self, -, -⟩ := product_some produced
  have proper := proper_product kept pending produced
  have proposes : c.manager.proposal p.change = some p.next := by
    rw [← product_next turn, produced]
    rfl
  have newer : p.current.id < p.next.id := by
    rw [nextView_id proper.made]
    exact View.lt_next fun last => goesOn (Or.inr last)
  have inside := contains_nextView proper.made proper.decided proper.present fun leaves =>
    goesOn (Or.inl leaves)
  rw [self] at inside
  have lawful := pending.lawful answer c.manager
  obtain ⟨effect, next, basis⟩ := w
  have turn : effect = .changeTurn p.change := turn
  subst turn
  obtain ⟨rest, uses⟩ : ∃ rest : Unit → Act Unit, next () = (useTurn p.change).bind rest :=
    pending.honours
  change Lawful c.manager c.manager (next ()) at lawful
  change ∃ v, ((next ()).run c.manager).1.view = some v ∧ p.current.id < v.id
  rw [uses] at lawful ⊢
  exact useTurn_ahead lawful known proposes inside newer

/-- Work that goes on after a wait, and makes a view if it waited for a turn. -/
theorem kept_resume (kept : c.Kept) (index : Nat) {w : Work} (waits : w ∈ c.works)
    (answer : w.effect.Answer) :
    (((c.without index).piece (w.next answer)).record (product c.manager w)).Kept := by
  have pending := kept.pending w waits
  have goesOn := kept_piece (kept_without kept index) (pending.lawful answer c.manager)
  obtain ⟨manager, made⟩ := piece_fields (c.without index) (w.next answer)
  refine kept_record goesOn (fun p produced => ?_) (fun p produced goes => ?_)
    fun p produced q old goes => ?_
  · exact proper_product kept pending produced
  · rw [manager]
    exact product_ahead kept pending produced goes answer
  · obtain ⟨-, known, -⟩ := product_some produced
    rw [made] at old
    obtain ⟨v, found, newer⟩ := kept.ahead q old goes
    rw [← Option.some.inj (found.symm.trans known)]
    exact newer

theorem kept_move (kept : c.Kept) (x : Move) : (c.move x).Kept := by
  cases x with
  | begin undertaking => exact kept_piece kept (lawful_procedure c.manager undertaking)
  | resume index answer =>
    cases waiting : c.works[index]? with
    | none => simpa only [move, waiting] using kept
    | some w =>
      have goesOn := kept_resume kept index (List.mem_of_getElem? waiting) (answer w.effect)
      simpa only [move, waiting] using goesOn
  | abandon index => exact kept_without kept index
  | pass => exact kept_grows kept (pass_grows c.manager)
  | outside now watch pulse answers statistics notices =>
    exact kept_grows kept (Alike.grows ⟨rfl, rfl, rfl⟩)

theorem kept_after (kept : c.Kept) (moves : List Move) : (c.after moves).Kept := by
  induction moves generalizing c with
  | nil => exact kept
  | cons x rest ih => exact ih (kept_move kept x)

end

end Course

end Cohort.Manager
