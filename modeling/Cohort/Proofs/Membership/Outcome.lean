import Cohort.Proofs.Membership.Restraint

/-! What one move does to a member: it goes on with its view, or its group goes on without it, or it
has a new view. Only a move that is open to it ends a view, and a move never ends two. -/

namespace Cohort.Manager

/-- A newer view ends a member's part in the group. -/
structure Leaves (m : Manager) (view : View) (n : Manager) : Prop where
  newer : ∃ current, m.view = some current ∧ current.id < view.id
  absent : view.contains m.self = false
  active : m.phase.stage < Phase.expelled.stage
  life : Phase.expelled.stage ≤ n.phase.stage
  self : n.self = m.self
  kept : n.view = m.view
  departed : n.departed = m.departed
  detector : n.detector = none

/-- A member has a new view. -/
structure Enters (m : Manager) (view : View) (n : Manager) : Prop where
  newer : ∀ v, m.view = some v → v.id < view.id
  present : view.contains m.self = true
  self : view.get? m.self = some n.self
  taken : n.view = some view
  departed : n.departed = m.departed ++ view.crashed ++ view.shutdown
  life : m.phase.stage ≤ n.phase.stage
  expelled : n.phase = .expelled → m.phase = .expelled
  detector : m.view ≠ none → m.detector = none → n.detector = none

/-- How a move can go, with what is told in it. -/
inductive Outcome (opened : Bool) (m n : Manager) (told : List View.Event) : Prop where
  | stays (same : Stays m n) (alarms : ∀ e ∈ told, e.isAlarm = true)
      (watching : m.detector = none → told = [])
  | leaves (opens : opened = true) (view : View) (last : Leaves m view n)
      (known : told = [.expelled view])
  | enters (opens : opened = true) (view : View) (next : Enters m view n)
      (known : told = view.diff m.view)

/-- What a member has told since it was in an earlier state. -/
def toldSince (m n : Manager) : List View.Event := tidings (n.notices.drop m.notices.length)

section
variable {opened : Bool} {m n k : Manager}

theorem toldSince_eq {more : List Notice} (added : n.notices = m.notices ++ more) :
    toldSince m n = tidings more := by
  rw [toldSince, added, List.drop_left]

theorem outcome_of_silent (same : Stays m n) (silent : Silent m n) :
    Outcome opened m n (toldSince m n) := by
  obtain ⟨more, added, none⟩ := silent
  rw [toldSince_eq added, none]
  exact .stays same (by simp) fun _ => rfl

theorem leaves_of_expels {before after : Manager} {view : View} (first : Steady m before)
    (expels : Expels before view after) (later : Steady after n) : Leaves m view n where
  newer := first.view ▸ expels.newer
  absent := first.self ▸ expels.absent
  active := by
    refine Nat.lt_of_le_of_lt first.life ?_
    rcases expels.active with joining | running
    · rw [joining]
      decide
    · rw [running]
      decide
  life := expels.phase ▸ later.life
  self := later.self.trans (expels.self.trans first.self)
  kept := later.view.trans (expels.kept.trans first.view)
  departed := later.departed.trans (expels.departed.trans first.departed)
  detector := later.detector expels.detector

theorem enters_of_installs {before after : Manager} {view : View} (first : Steady m before)
    (installs : Installs before view after) (later : Steady after n) : Enters m view n where
  newer v known := installs.newer v (first.view.trans known)
  present := first.self ▸ installs.present
  self := by rw [later.self, ← first.self, installs.self]
  taken := later.view.trans installs.taken
  departed := by rw [later.departed, installs.departed, first.departed]
  life := Nat.le_trans (installs.phase ▸ first.life) later.life
  expelled known := first.expelled (installs.phase ▸ later.expelled known)
  detector viewed none := by
    have seen : before.view ≠ Option.none := first.view ▸ viewed
    exact later.detector ((installs.later seen).1.trans (first.detector none))

/-- What a piece tells that adopts a view is what the adoption tells. -/
theorem toldSince_adoption {before after : Manager} {more : List Notice} (first : Silent m before)
    (added : after.notices = before.notices ++ more) (later : Silent after n) :
    toldSince m n = tidings more := by
  obtain ⟨early, began, none⟩ := first
  obtain ⟨late, ended, none'⟩ := later
  have all : n.notices = m.notices ++ (early ++ more ++ late) := by
    rw [ended, added, began]
    simp only [List.append_assoc]
  rw [toldSince_eq all]
  simp only [tidings_append, none, none', List.nil_append, List.append_nil]

theorem outcome_of_piece (piece : Piece opened m n) : Outcome opened m n (toldSince m n) := by
  cases piece with
  | steady goes => exact outcome_of_silent goes.toStays goes.silent
  | adopts opens before view first later =>
    rcases adopt_cases before view with ignored | expels | installs
    · rw [ignored] at later
      have goes := first.trans later
      exact outcome_of_silent goes.toStays goes.silent
    · refine .leaves opens view (leaves_of_expels first expels later) ?_
      exact toldSince_adoption first.silent expels.told later.silent
    · refine .enters opens view (enters_of_installs first installs later) ?_
      obtain ⟨more, added, told⟩ := installs.told
      rw [toldSince_adoption first.silent added later.silent, told, first.view]

theorem feeds_silent (m : Manager) (events : List Detector.Event) :
    Silent m (events.foldl feed m) ∧ Stays m (events.foldl feed m) := by
  induction events generalizing m with
  | nil => exact ⟨.refl m, .refl m⟩
  | cons e rest ih =>
    obtain ⟨silent, stays⟩ := ih (m.feed e)
    have fed : Silent m (m.feed e) ∧ Stays m (m.feed e) := by
      rw [feed_eq]
      refine ⟨⟨_, rfl, ?_⟩, rfl, rfl, rfl, Nat.le_refl _, id, id⟩
      split <;> rfl
    exact ⟨fed.1.trans silent, fed.2.trans stays⟩

theorem pass_stays (m : Manager) : Silent m m.pass ∧ Stays m m.pass := by
  unfold pass
  cases watching : m.detector with
  | none => exact ⟨.refl m, .refl m⟩
  | some d =>
    let passed := (m.clocked d).expire
    obtain ⟨silent, stays⟩ := feeds_silent { m with detector := some passed.1 } passed.2
    have begun : Stays m { m with detector := some passed.1 } :=
      ⟨rfl, rfl, rfl, Nat.le_refl _, id, fun none => by simp [watching] at none⟩
    exact ⟨silent, begun.trans stays⟩

theorem outcome_of_detectorEvent (m : Manager) (event : Detector.Event) :
    Outcome opened m ((onDetectorEvent event).run m).1
      (toldSince m ((onDetectorEvent event).run m).1) := by
  rcases onDetectorEvent_cases m event with
    ⟨-, runs⟩ | ⟨d, watching, ⟨k, runs, alarms, -⟩ | ⟨view, -, runs⟩⟩
  · rw [runs]
    exact outcome_of_silent (.refl m) (.refl m)
  · rw [runs]
    obtain ⟨statistics, more, rfl, harmless⟩ := alarms
    refine .stays ⟨rfl, rfl, rfl, Nat.le_refl _, id, fun none => ?_⟩ ?_ fun none => ?_
    · simp [watching] at none
    · rwa [toldSince_eq rfl]
    · simp [watching] at none
  · rw [runs]
    refine outcome_of_silent ⟨rfl, rfl, rfl, Nat.le_refl _, id, fun none => ?_⟩ (.refl _)
    simp [watching] at none

end

/-! ### Runs -/

/-- Whether a member may adopt a view as soon as it begins this. -/
def Undertaking.opens : Undertaking → Bool
  | .start => true
  | .direct message => message.payload.handed?.isSome
  | _ => false

theorem restrained_procedure (m : Manager) {undertaking : Undertaking}
    (ordinary : ∀ event, undertaking ≠ .detectorEvent event) :
    Restrained undertaking.opens m undertaking.procedure := by
  cases undertaking with
  | start => exact restrained_bind (restrained_start m) fun _ n => restrained_pure _
  | leave => exact restrained_bind (restrained_leave m) fun _ n => restrained_pure _
  | close => exact restrained_close m
  | datagram source data =>
    exact restrained_bind (restrained_onDatagram m source data) fun _ n => restrained_pure _
  | direct message => exact restrained_bind (restrained_onDirect m message) fun _ n => restrained_pure _
  | detectorEvent event => exact absurd rfl (ordinary event)
  | errand e => exact restrained_run m e
  | send recipient message =>
    exact restrained_bind (restrained_send m recipient message) fun _ n => restrained_pure _
  | broadcast message =>
    exact restrained_bind (restrained_broadcast m message) fun _ n => restrained_pure _

/-- Work that adopts at most one view when it goes on, and none if it waited for something else. -/
def Work.Restrained (w : Work) : Prop :=
  ∀ n, Manager.Restrained false n (.await w.effect w.next)

namespace Course

/-- Whether a move may end a view. -/
def opens (c : Course) : Move → Bool
  | .begin undertaking => undertaking.opens
  | .resume index _ => (c.works[index]?).any (·.effect.opens)
  | _ => false

/-- What is told in a move to those who follow the view. -/
def told (c : Course) (x : Move) : List View.Event :=
  match x with
  | .outside _ _ _ _ _ _ => []
  | x => toldSince c.manager (c.move x).manager

@[simp] theorem after_cons (c : Course) (x : Move) (rest : List Move) :
    c.after (x :: rest) = (c.move x).after rest := rfl

theorem after_append (c : Course) (first second : List Move) :
    c.after (first ++ second) = (c.after first).after second := by
  induction first generalizing c with
  | nil => rfl
  | cons x rest ih => exact ih (c.move x)

section
variable {c : Course}

theorem restrained_piece {p : Act Unit} (restrained : ∀ w ∈ c.works, w.Restrained)
    (later : ∀ effect next, (p.run c.manager).2 = .waiting effect next →
      ∀ n, Manager.Restrained false n (.await effect next)) :
    ∀ w ∈ (c.piece p).works, w.Restrained := by
  unfold piece
  cases stop : (p.run c.manager).2 with
  | done result => exact restrained
  | waiting effect next =>
    intro w member
    rcases List.mem_append.mp member with old | new
    · exact restrained w old
    · rw [List.mem_singleton.mp new]
      exact later effect next stop

theorem detectorEvent_restrained (m : Manager) (event : Detector.Event) {effect : Effect}
    {next : effect.Answer → Act Unit}
    (stops : ((onDetectorEvent event).run m).2 = .waiting effect next) (n : Manager) :
    Manager.Restrained false n (.await effect next) := by
  rcases onDetectorEvent_cases m event with ⟨-, runs⟩ | ⟨d, -, ⟨k, runs, -, -⟩ | ⟨view, -, runs⟩⟩
  · simp [runs] at stops
  · simp [runs] at stops
  · rw [runs] at stops
    cases stops
    exact .turn fun k => restrained_pure ()

theorem restrained_move (restrained : ∀ w ∈ c.works, w.Restrained) (x : Move) :
    ∀ w ∈ (c.move x).works, w.Restrained := by
  have fewer : ∀ index, ∀ w ∈ (c.without index).works, w.Restrained :=
    fun index w member => restrained w (List.mem_of_mem_eraseIdx member)
  cases x with
  | begin undertaking =>
    by_cases handles : ∃ event, undertaking = .detectorEvent event
    · obtain ⟨event, rfl⟩ := handles
      exact restrained_piece restrained fun effect next => detectorEvent_restrained c.manager event
    · have ordinary : ∀ event, undertaking ≠ .detectorEvent event :=
        fun event same => handles ⟨event, same⟩
      exact restrained_piece restrained (run_restrained (restrained_procedure c.manager ordinary)).2
  | resume index answer =>
    cases waiting : c.works[index]? with
    | none => simpa only [move, waiting] using restrained
    | some w =>
      simp only [move, waiting]
      have goesOn := restrained_next c.manager
        (restrained w (List.mem_of_getElem? waiting) c.manager) (answer w.effect)
      exact restrained_piece (fewer index) (run_restrained goesOn).2
  | abandon index => exact fewer index
  | pass => exact restrained
  | outside now watch pulse answers statistics notices => exact restrained

theorem restrained_after (restrained : ∀ w ∈ c.works, w.Restrained) (moves : List Move) :
    ∀ w ∈ (c.after moves).works, w.Restrained := by
  induction moves generalizing c with
  | nil => exact restrained
  | cons x rest ih => exact ih (restrained_move restrained x)

theorem outcome_move (restrained : ∀ w ∈ c.works, w.Restrained) (x : Move) :
    Outcome (c.opens x) c.manager (c.move x).manager (c.told x) := by
  cases x with
  | begin undertaking =>
    have piece := (piece_fields c undertaking.procedure).1
    simp only [told, move, piece]
    by_cases handles : ∃ event, undertaking = .detectorEvent event
    · obtain ⟨event, rfl⟩ := handles
      exact outcome_of_detectorEvent c.manager event
    · have ordinary : ∀ event, undertaking ≠ .detectorEvent event :=
        fun event same => handles ⟨event, same⟩
      exact outcome_of_piece (run_restrained (restrained_procedure c.manager ordinary)).1
  | resume index answer =>
    cases waiting : c.works[index]? with
    | none =>
      simp only [told, move, waiting]
      exact outcome_of_silent (.refl _) (.refl _)
    | some w =>
      have goesOn := restrained_next c.manager
        (restrained w (List.mem_of_getElem? waiting) c.manager) (answer w.effect)
      have piece := (piece_fields (c.without index) (w.next (answer w.effect))).1
      simp only [told, move, waiting, record, piece, opens, Option.any_some]
      exact outcome_of_piece (run_restrained goesOn).1
  | abandon index => exact outcome_of_silent (.refl _) (.refl _)
  | pass => exact outcome_of_silent (pass_stays c.manager).2 (pass_stays c.manager).1
  | outside now watch pulse answers statistics notices =>
    exact .stays ⟨rfl, rfl, rfl, Nat.le_refl _, id, id⟩ (by simp [told]) fun _ => rfl

end

end Course

end Cohort.Manager
