import Cohort.Proofs.Membership.Course
import Cohort.Proofs.Membership.Provenance

/-! Groups of members. Any number of members run side by side, each as its course has it, and what
they send each other on the direct channel arrives in any order, late, several times or never. Which
views there are in a group, and where each of them comes from. -/

namespace Cohort

namespace Procedure

variable {σ α : Type}

/-- The states that one piece goes through. -/
def states (p : Procedure σ α) (s : σ) : List σ :=
  match p with
  | .done _ => [s]
  | .read next => (next s).states s
  | .write t next => s :: next.states t
  | .await _ _ => [s]

theorem run_mem_states (p : Procedure σ α) (s : σ) : (p.run s).1 ∈ p.states s := by
  induction p generalizing s with
  | done result => exact List.mem_singleton_self s
  | read next ih => exact ih s s
  | write t next ih => exact List.mem_cons_of_mem s (ih t)
  | await effect next ih => exact List.mem_singleton_self s

end Procedure

namespace Manager

/-! ### One piece -/

section
variable {α : Type} {known : View → Prop} {m : Manager} {result : (View → Prop) → α → Prop} {p : Act α}

theorem holds_states (holds : Holds known m) (faithful : Faithful result known m p) :
    ∀ n ∈ p.states m, Holds known n := by
  induction faithful with
  | done here _ =>
    intro n member
    rw [List.mem_singleton.mp member]
    exact here
  | read _ ih => exact ih holds
  | write here _ ih =>
    intro n member
    rcases List.mem_cons.mp member with rfl | further
    · exact holds
    · exact ih here n further
  | await _ _ =>
    intro n member
    rw [List.mem_singleton.mp member]
    exact holds

theorem stop_faithful (faithful : Faithful result known m p) :
    ∀ effect next, (p.run m).2 = .waiting effect next → Sends known effect ∧
      ∀ (more : View → Prop) n answer, (∀ v, known v → more v) → Holds more n →
        Brings more n effect answer → Faithful result more n (next answer) := by
  induction faithful with
  | done _ _ => exact fun effect next stops => by simp [Procedure.run] at stops
  | read _ ih => exact ih
  | write _ _ ih => exact ih
  | await sends goesOn =>
    intro effect next stops
    cases stops
    exact ⟨sends, goesOn⟩

end

/-- What a member is handed to act on, if it comes from the direct channel. -/
def Undertaking.payload? : Undertaking → Option Payload
  | .direct message => some message.payload
  | _ => none

theorem faithful_procedure {known : View → Prop} {m : Manager} (holds : Holds known m)
    (founds : ∀ founder, known (View.initial founder)) (undertaking : Undertaking)
    (genuine : ∀ payload ∈ undertaking.payload?, ∀ v, payload.view? = some v → known v) :
    Faithful Plain known m undertaking.procedure := by
  have plainly : ∀ {α : Type} {p : Act α}, Faithful Plain known m p →
      Faithful Plain known m (do let _ ← p : Act Unit) := fun first =>
    faithful_bind first fun more n _ _ holds _ => faithful_pure holds trivial
  cases undertaking with
  | start => exact plainly (faithful_start holds founds)
  | leave => exact plainly (faithful_leave holds)
  | close => exact faithful_close holds
  | datagram source data => exact plainly (faithful_onDatagram holds source data)
  | direct message => exact plainly (faithful_onDirect holds (genuine message.payload rfl))
  | detectorEvent event => exact faithful_onDetectorEvent holds event
  | errand e => exact faithful_run holds e
  | send recipient message => exact plainly (faithful_send holds recipient message)
  | broadcast message => exact plainly (faithful_broadcast holds message)

/-! ### One member -/

/-- What comes of waiting is faithful, whatever more is known by then. -/
def Work.Faithful (known : View → Prop) (w : Work) : Prop :=
  ∀ (more : View → Prop) n answer, (∀ v, known v → more v) → Holds more n →
    Brings more n w.effect answer → Manager.Faithful Plain more n (w.next answer)

namespace Course

/-- The piece that runs in a move. -/
def running (c : Course) : Move → Option (Act Unit)
  | .begin undertaking => some undertaking.procedure
  | .resume index answer => c.works[index]?.map fun w => w.next (answer w.effect)
  | .abandon _ | .pass | .outside .. => none

/-- The states that a member goes through in a move. -/
def states (c : Course) (x : Move) : List Manager :=
  match c.running x with
  | some p => p.states c.manager
  | none => [(c.move x).manager]

/-- The views that are installed at some time in a move. -/
def views (c : Course) (x : Move) : List View := (c.states x).filterMap (·.view)

/-- What a piece sends when it stops. -/
def sent (m : Manager) (p : Act Unit) : List Payload :=
  match (p.run m).2 with
  | .waiting (.deliver deliveries) _ => deliveries.map (·.message.payload)
  | _ => []

/-- What a member sends in a move. -/
def sends (c : Course) (x : Move) : List Payload :=
  match c.running x with
  | some p => sent c.manager p
  | none => []

/-- What the member has and does stays within the views that are known, and what it has or had when
it made a view is among those seen. -/
structure Within (known : View → Prop) (seen : List View) (owner : Member) (c : Course) : Prop where
  own : c.manager.self.same owner = true
  mine : ∀ p ∈ c.made, p.self.same owner = true
  holds : Holds known c.manager
  pending : ∀ w ∈ c.works, w.Faithful known
  installed : ∀ v, c.manager.view = some v → v ∈ seen
  based : ∀ p ∈ c.made, p.current ∈ seen

section
variable {known : View → Prop} {seen : List View} {owner : Member} {c : Course}

theorem Within.more (within : c.Within known seen owner) {more : View → Prop} {many : List View}
    (grows : ∀ v, known v → more v) (added : seen ⊆ many) : c.Within more many owner where
  own := within.own
  mine := within.mine
  holds v found := grows v (within.holds v found)
  pending w member most n answer further :=
    within.pending w member most n answer fun v here => further v (grows v here)
  installed v found := added (within.installed v found)
  based p member := added (within.based p member)

theorem Within.without (within : c.Within known seen owner) (index : Nat) :
    (c.without index).Within known seen owner :=
  { within with pending := fun w member => within.pending w (List.mem_of_mem_eraseIdx member) }

theorem within_piece {p : Act Unit} (within : c.Within known seen owner)
    (lawful : Lawful c.manager c.manager p) (faithful : Faithful Plain known c.manager p) :
    (c.piece p).Within known (seen ++ (p.states c.manager).filterMap (·.view)) owner ∧
      ∀ payload ∈ sent c.manager p, ∀ v, payload.view? = some v → known v := by
  have ran := Procedure.run_mem_states p c.manager
  have stops := stop_faithful faithful
  obtain ⟨manager, made⟩ := piece_fields c p
  refine ⟨⟨?_, ?_, ?_, ?_, ?_, ?_⟩, ?_⟩
  · rw [manager]
    exact Member.same_trans (run_lawful lawful).1.self within.own
  · rw [made]
    exact within.mine
  · rw [manager]
    exact holds_states within.holds faithful _ ran
  · unfold piece
    cases stop : (p.run c.manager).2 with
    | done result => exact within.pending
    | waiting effect next =>
      intro w member
      rcases List.mem_append.mp member with old | new
      · exact within.pending w old
      · rw [List.mem_singleton.mp new]
        exact (stops effect next stop).2
  · rw [manager]
    exact fun v found => List.mem_append_right _ (List.mem_filterMap.mpr ⟨_, ran, found⟩)
  · rw [made]
    exact fun q member => List.mem_append_left _ (within.based q member)
  · intro payload member v carries
    unfold sent at member
    split at member
    · rename_i deliveries next stop
      obtain ⟨d, delivered, rfl⟩ := List.mem_map.mp member
      exact (stops _ next stop).1 d delivered v carries
    · contradiction

theorem Within.record (within : c.Within known seen owner) {made : Option Production}
    (mine : ∀ p ∈ made, p.self.same owner = true) (based : ∀ p ∈ made, p.current ∈ seen) :
    (c.record made).Within known seen owner where
  own := within.own
  mine p member := (List.mem_append.mp member).elim (within.mine p) fun new =>
    mine p (Option.mem_toList.mp new)
  holds := within.holds
  pending := within.pending
  installed := within.installed
  based p member := (List.mem_append.mp member).elim (within.based p) fun new =>
    based p (Option.mem_toList.mp new)

theorem Within.still (within : c.Within known seen owner) {m : Manager}
    (view : m.view = c.manager.view) (self : m.self.same c.manager.self = true) :
    ({ c with manager := m } : Course).Within known seen owner where
  own := Member.same_trans self within.own
  mine := within.mine
  holds := holds_of_view view within.holds
  pending := within.pending
  installed v found := within.installed v (view ▸ found)
  based := within.based

end

/-! ### What a member is told -/

/-- An answer to a request to join was sent by somebody. -/
def genuine (letters : List Payload) : (effect : Effect) → effect.Answer → Bool
  | .joinAnswer _, .answered answer => letters.contains (.joinResponse answer)
  | _, _ => true

/-- What a move takes from the direct channel was sent by somebody. -/
def permits (letters : List Payload) (c : Course) : Move → Bool
  | .begin undertaking => undertaking.payload?.all letters.contains
  | .resume index answer => c.works[index]?.all fun w => genuine letters w.effect (answer w.effect)
  | .abandon _ | .pass | .outside .. => true

section
variable {known : View → Prop} {seen : List View} {owner : Member} {c : Course} {letters : List Payload}

theorem brings_of_genuine {m : Manager} {w : Work} {answer : w.effect.Answer}
    (arrived : ∀ payload ∈ letters, ∀ v, payload.view? = some v → known v)
    (makes : ∀ p ∈ product m w, known p.next) (sent : genuine letters w.effect answer = true) :
    Brings known m w.effect answer := by
  obtain ⟨effect, next, basis⟩ := w
  cases effect with
  | changeTurn change =>
    intro v proposes
    rw [← product_next (m := m) (w := ⟨.changeTurn change, next, basis⟩) rfl] at proposes
    obtain ⟨p, produced, rfl⟩ := Option.map_eq_some_iff.mp proposes
    exact makes p produced
  | joinAnswer patience =>
    cases answer with
    | answered answer =>
      cases answer with
      | accepted view => exact arrived _ (List.contains_iff_mem.mp sent) view rfl
      | redirect | rejected => trivial
    | silence | closed => trivial
  | _ => trivial

theorem within_resume (index : Nat) {w : Work} {answer : w.effect.Answer} (kept : c.Kept)
    (within : c.Within known seen owner) (waits : w ∈ c.works)
    (faithful : Faithful Plain known c.manager (w.next answer)) :
    (((c.without index).piece (w.next answer)).record (product c.manager w)).Within known
        (seen ++ ((w.next answer).states c.manager).filterMap (·.view)) owner ∧
      ∀ payload ∈ sent c.manager (w.next answer), ∀ v, payload.view? = some v → known v := by
  have lawful := (kept.pending w waits).lawful answer c.manager
  obtain ⟨goesOn, sends⟩ := within_piece (c := c.without index) (within.without index) lawful faithful
  refine ⟨goesOn.record (fun p produced => ?_) fun p produced => ?_, sends⟩
  · obtain ⟨-, -, self, -, -⟩ := product_some produced
    rw [self]
    exact within.own
  · obtain ⟨-, current, -, -, -⟩ := product_some produced
    exact List.mem_append_left _ (within.installed _ current)

theorem within_move {x : Move} (kept : c.Kept) (within : c.Within known seen owner)
    (permitted : c.permits letters x = true) (founds : ∀ founder, known (View.initial founder))
    (arrived : ∀ payload ∈ letters, ∀ v, payload.view? = some v → known v)
    (makes : ∀ p ∈ (c.move x).made, known p.next) :
    (c.move x).Within known (seen ++ c.views x) owner ∧ (∀ v ∈ c.views x, known v) ∧
      ∀ payload ∈ c.sends x, ∀ v, payload.view? = some v → known v := by
  have still : c.running x = none → (c.move x).Within known seen owner →
      (c.move x).Within known (seen ++ c.views x) owner ∧ (∀ v ∈ c.views x, known v) ∧
        ∀ payload ∈ c.sends x, ∀ v, payload.view? = some v → known v := by
    intro idle after
    refine ⟨after.more (fun _ here => here) (List.subset_append_left _ _), fun v member => ?_, ?_⟩
    · simp only [views, states, idle, List.filterMap_cons, List.filterMap_nil] at member
      split at member
      · contradiction
      · rename_i held
        exact List.mem_singleton.mp member ▸ after.holds _ held
    · simp [sends, idle]
  have ran : ∀ p, c.running x = some p → Faithful Plain known c.manager p →
      (∀ v ∈ c.views x, known v) := by
    intro p runs faithful v member
    simp only [views, states, runs] at member
    obtain ⟨n, passed, held⟩ := List.mem_filterMap.mp member
    exact holds_states within.holds faithful n passed v held
  cases x with
  | begin undertaking =>
    have received : ∀ payload ∈ undertaking.payload?, payload ∈ letters := by
      intro payload handed
      simp only [permits, Option.mem_def.mp handed, Option.all_some] at permitted
      exact List.contains_iff_mem.mp permitted
    have faithful := faithful_procedure within.holds founds undertaking
      fun payload handed => arrived payload (received payload handed)
    obtain ⟨after, sends⟩ := within_piece within (lawful_procedure c.manager undertaking) faithful
    exact ⟨after, ran _ rfl faithful, sends⟩
  | resume index answer =>
    cases waiting : c.works[index]? with
    | none =>
      have idle : c.move (.resume index answer) = c := by simp only [move, waiting]
      exact still (by simp [running, waiting]) (idle.symm ▸ within)
    | some w =>
      have runs : c.running (.resume index answer) = some (w.next (answer w.effect)) := by
        simp only [running, waiting, Option.map_some]
      have moves : c.move (.resume index answer) =
          ((c.without index).piece (w.next (answer w.effect))).record (product c.manager w) := by
        simp only [move, waiting]
      have member := List.mem_of_getElem? waiting
      have produces : ∀ p ∈ product c.manager w, known p.next := fun p produced => by
        refine makes p ?_
        rw [moves]
        exact List.mem_append_right _ (Option.mem_toList.mpr produced)
      have received : genuine letters w.effect (answer w.effect) = true := by
        simpa only [permits, waiting, Option.all_some] using permitted
      have faithful := within.pending w member known c.manager (answer w.effect) (fun _ here => here)
        within.holds (brings_of_genuine arrived produces received)
      obtain ⟨after, sends⟩ := within_resume index kept within member faithful
      refine ⟨?_, ran _ runs faithful, ?_⟩
      · simpa only [moves, views, states, runs] using after
      · simpa only [Course.sends, runs] using sends
  | abandon index => exact still rfl (within.without index)
  | pass => exact still rfl (within.still (pass_view _) (pass_grows _).self)
  | outside => exact still rfl (within.still rfl (Member.same_refl _))

theorem made_move {p : Production} (x : Move) (member : p ∈ c.made) : p ∈ (c.move x).made := by
  cases x with
  | begin undertaking => exact (piece_fields c undertaking.procedure).2.symm ▸ member
  | resume index answer =>
    cases waiting : c.works[index]? with
    | none => simpa only [move, waiting] using member
    | some w =>
      simp only [move, waiting]
      refine List.mem_append_left _ ?_
      rw [(piece_fields _ _).2]
      exact member
  | abandon index => exact member
  | pass => exact member
  | outside => exact member

end

end Course

end Manager

/-! ### Groups -/

open Manager

/-- The first view of a group. -/
def View.Founding (v : View) : Prop := ∃ founder, v = View.initial founder

/-- What a member begins with. -/
structure Setup where
  config : Config
  policy : LossPolicy
  self : Member
  channel : Option Net.Endpoint
  rota : Detector.Rota := .listed

/-- Members that may form groups, no two of one incarnation. -/
structure Population (ι : Type) where
  setup : ι → Setup
  apart : ∀ i j, (setup i).self.same (setup j).self = true → i = j

/-- A population at some time, with all that was ever sent on the direct channel and all the views that
somebody had installed at some time. -/
structure Group (ι : Type) where
  course : ι → Course
  letters : List Payload := []
  seen : List View := []

namespace Group

variable {ι : Type}

def fresh (population : Population ι) : Group ι where
  course i :=
    let setup := population.setup i
    Course.fresh setup.config setup.policy setup.self setup.channel setup.rota

/-- A view is of a founder alone, or a member of the group made it. -/
def Known (g : Group ι) (v : View) : Prop :=
  v.Founding ∨ ∃ i, ∃ p ∈ (g.course i).made, p.next = v

/-- What holds of a group at any time: every view that is installed or on its way is known. -/
structure Traced (population : Population ι) (g : Group ι) : Prop where
  kept : ∀ i, (g.course i).Kept
  within : ∀ i, (g.course i).Within g.Known g.seen (population.setup i).self
  arrived : ∀ payload ∈ g.letters, ∀ v, payload.view? = some v → g.Known v
  seen : ∀ v ∈ g.seen, g.Known v

theorem traced_fresh (population : Population ι) : (fresh population).Traced population where
  kept i := Course.kept_fresh _ _ _ _ _
  within i := ⟨Member.same_refl _, by simp [fresh, Course.fresh], by simp [Holds, fresh, Course.fresh],
    by simp [fresh, Course.fresh], by simp [fresh, Course.fresh], by simp [fresh, Course.fresh]⟩
  arrived := by simp [fresh]
  seen := by simp [fresh]

variable [DecidableEq ι]

/-- One member moves. What it takes from the direct channel must have been sent; from whom, and how
long ago, does not matter. -/
def move (g : Group ι) (i : ι) (x : Course.Move) : Group ι :=
  if (g.course i).permits g.letters x then
    { course := fun j => if j = i then (g.course i).move x else g.course j
      letters := g.letters ++ (g.course i).sends x
      seen := g.seen ++ (g.course i).views x }
  else g

def after (g : Group ι) : List (ι × Course.Move) → Group ι
  | [] => g
  | (i, x) :: rest => (g.move i x).after rest

theorem traced_move {population : Population ι} {g : Group ι} (traced : g.Traced population) (i : ι)
    (x : Course.Move) : (g.move i x).Traced population := by
  unfold move
  split
  case isFalse => exact traced
  case isTrue permitted =>
    let next : Group ι :=
      { course := fun j => if j = i then (g.course i).move x else g.course j
        letters := g.letters ++ (g.course i).sends x
        seen := g.seen ++ (g.course i).views x }
    have own : next.course i = (g.course i).move x := if_pos rfl
    have others : ∀ j, j ≠ i → next.course j = g.course j := fun j other => if_neg other
    have grows : ∀ v, g.Known v → next.Known v := by
      rintro v (founded | ⟨j, p, made, rfl⟩)
      · exact Or.inl founded
      · refine Or.inr ⟨j, p, ?_, rfl⟩
        by_cases same : j = i
        · rw [same, own]
          exact Course.made_move x (same ▸ made)
        · rw [others j same]
          exact made
    have arrived : ∀ payload ∈ g.letters, ∀ v, payload.view? = some v → next.Known v :=
      fun payload member v carries => grows v (traced.arrived payload member v carries)
    have makes : ∀ p ∈ ((g.course i).move x).made, next.Known p.next := fun p made =>
      Or.inr ⟨i, p, own.symm ▸ made, rfl⟩
    obtain ⟨within, views, sends⟩ := Course.within_move (traced.kept i)
      ((traced.within i).more grows (List.Subset.refl _)) permitted
      (fun founder => Or.inl ⟨founder, rfl⟩) arrived makes
    change next.Traced population
    refine ⟨fun j => ?_, fun j => ?_, fun payload member v carries => ?_, fun v member => ?_⟩
    · by_cases same : j = i
      · rw [same, own]
        exact Course.kept_move (traced.kept i) x
      · rw [others j same]
        exact traced.kept j
    · by_cases same : j = i
      · rw [same, own]
        exact within
      · rw [others j same]
        exact (traced.within j).more grows (List.subset_append_left _ _)
    · rcases List.mem_append.mp member with old | new
      · exact arrived payload old v carries
      · exact sends payload new v carries
    · rcases List.mem_append.mp member with old | new
      · exact grows v (traced.seen v old)
      · exact views v new

theorem traced_after {population : Population ι} {g : Group ι} (traced : g.Traced population)
    (moves : List (ι × Course.Move)) : (g.after moves).Traced population := by
  induction moves generalizing g with
  | nil => exact traced
  | cons step rest ih => exact ih (traced_move traced step.1 step.2)

end Group

end Cohort
