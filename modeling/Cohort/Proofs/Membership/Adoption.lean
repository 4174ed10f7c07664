import Cohort.Proofs.Health.Timers
import Cohort.Proofs.Membership.Growth

/-! What becomes of a member that adopts a view: the view is ignored, or it expels the member, or it is
installed. Between two adoptions the member's work leaves alone what only an adoption may change. -/

namespace Cohort

/-- How far a life has come. -/
def Phase.stage : Phase → Nat
  | .joining => 0
  | .running => 1
  | .expelled => 2
  | .closed => 3

/-- Whether an event tells of a partition and not of a view. -/
def View.Event.isAlarm : View.Event → Bool
  | .partitionDetected _ _ _ => true
  | _ => false

def Notice.event? : Notice → Option View.Event
  | .event e => some e
  | _ => none

/-- What those who follow the view get to know from some notices. -/
def tidings (notices : List Notice) : List View.Event := notices.filterMap Notice.event?

@[simp] theorem tidings_append (a b : List Notice) : tidings (a ++ b) = tidings a ++ tidings b :=
  List.filterMap_append

@[simp] theorem tidings_events (events : List View.Event) : tidings (events.map .event) = events := by
  induction events with
  | nil => rfl
  | cons e rest ih => exact congrArg (e :: ·) ih

namespace Manager

/-! ### Work that adopts nothing -/

/-- A member goes on with the same view, and without a detector if it has none. -/
structure Stays (m n : Manager) : Prop where
  self : n.self = m.self
  view : n.view = m.view
  departed : n.departed = m.departed
  life : m.phase.stage ≤ n.phase.stage
  expelled : n.phase = .expelled → m.phase = .expelled
  detector : m.detector = none → n.detector = none

/-- A member has told nothing to those who follow the view. -/
def Silent (m n : Manager) : Prop := ∃ more, n.notices = m.notices ++ more ∧ tidings more = []

/-- A member also tells nothing, and unless it closes, it leaves its detector alone and has no view
for it. -/
structure Steady (m n : Manager) : Prop extends Stays m n where
  silent : Silent m n
  watching : n.phase ≠ .closed → n.detector = m.detector ∧ n.watched = m.watched ∧
    ∃ events, n.watch = { m.watch with inbox := m.watch.inbox ++ events } ∧
      Detector.news events = []

theorem stage_le_closed (phase : Phase) : phase.stage ≤ Phase.closed.stage := by
  cases phase <;> decide

theorem eq_closed_of_stage {a b : Phase} (later : a.stage ≤ b.stage) (closed : a = .closed) :
    b = .closed := by
  subst closed
  cases b <;> first | rfl | exact absurd later (by decide)

section
variable {m n k : Manager}

theorem Stays.refl (m : Manager) : Stays m m := ⟨rfl, rfl, rfl, Nat.le_refl _, id, id⟩

theorem Stays.trans (first : Stays m n) (second : Stays n k) : Stays m k where
  self := second.self.trans first.self
  view := second.view.trans first.view
  departed := second.departed.trans first.departed
  life := Nat.le_trans first.life second.life
  expelled known := first.expelled (second.expelled known)
  detector known := second.detector (first.detector known)

theorem Silent.refl (m : Manager) : Silent m m := ⟨[], (List.append_nil _).symm, rfl⟩

theorem Silent.trans (first : Silent m n) (second : Silent n k) : Silent m k := by
  obtain ⟨before, added, early⟩ := first
  obtain ⟨after, further, late⟩ := second
  refine ⟨before ++ after, by rw [further, added, List.append_assoc], ?_⟩
  rw [tidings_append, early, late, List.append_nil]

theorem Steady.trans (first : Steady m n) (second : Steady n k) : Steady m k where
  toStays := first.toStays.trans second.toStays
  silent := first.silent.trans second.silent
  watching goesOn := by
    obtain ⟨same, watched, late, fed, plain⟩ := second.watching goesOn
    have before : n.phase ≠ .closed := fun closed => goesOn (eq_closed_of_stage second.life closed)
    obtain ⟨same', watched', early, fed', plain'⟩ := first.watching before
    refine ⟨same.trans same', watched.trans watched', early ++ late, ?_, ?_⟩
    · rw [fed, fed', List.append_assoc]
    · rw [Detector.news_append, plain, plain', List.append_nil]

/-- Work on what neither the view nor the detector depends on, with a notice of it. -/
theorem Steady.of_same (added : List Notice) (self : n.self = m.self) (view : n.view = m.view)
    (departed : n.departed = m.departed) (phase : n.phase = m.phase)
    (detector : n.detector = m.detector) (watched : n.watched = m.watched)
    (watch : n.watch = m.watch) (notices : n.notices = m.notices ++ added)
    (silent : tidings added = []) : Steady m n where
  self := self
  view := view
  departed := departed
  life := Nat.le_of_eq (congrArg Phase.stage phase.symm)
  expelled known := phase ▸ known
  detector known := detector.trans known
  silent := ⟨added, notices, silent⟩
  watching _ := ⟨detector, watched, [], by rw [watch, List.append_nil], rfl⟩

theorem Steady.refl (m : Manager) : Steady m m :=
  .of_same [] rfl rfl rfl rfl rfl rfl rfl (List.append_nil _).symm rfl

/-- Once a member is closed, nobody watches for it any more. -/
theorem Steady.of_closed (added : List Notice) (closed : n.phase = .closed) (self : n.self = m.self)
    (view : n.view = m.view) (departed : n.departed = m.departed)
    (detector : m.detector = none → n.detector = none) (notices : n.notices = m.notices ++ added)
    (silent : tidings added = []) : Steady m n where
  self := self
  view := view
  departed := departed
  life := closed ▸ stage_le_closed _
  expelled known := absurd (closed.symm.trans known) (by decide)
  detector := detector
  silent := ⟨added, notices, silent⟩
  watching goesOn := absurd closed goesOn

theorem notice_steady (m : Manager) (notice : Notice) (silent : notice.event? = none) :
    Steady m (m.notice notice) :=
  .of_same [notice] rfl rfl rfl rfl rfl rfl rfl rfl (by simp [tidings, silent])

theorem count_steady (m : Manager) (counter : Counter) : Steady m (m.count counter) :=
  .of_same [] rfl rfl rfl rfl rfl rfl rfl (List.append_nil _).symm rfl

/-- An event that is queued goes to the end of the inbox, unless nobody takes it. -/
theorem send_inbox {α : Type} (a : Actor α) (command : α) :
    ∃ events, (a.send command).1 = { a with inbox := a.inbox ++ events } ∧
      (events = [] ∨ events = [command]) := by
  unfold Actor.send
  split
  · exact ⟨[], by rw [List.append_nil], Or.inl rfl⟩
  · exact ⟨[command], rfl, Or.inr rfl⟩

theorem feed_steady (m : Manager) {event : Detector.Event} (plain : event.view? = none) :
    Steady m (m.feed event) := by
  unfold feed
  split
  · obtain ⟨events, sent, few⟩ := send_inbox m.watch event
    refine { (notice_steady m (.actor .watch) rfl) with watching := fun _ => ?_ }
    refine ⟨rfl, rfl, events, sent, ?_⟩
    rcases few with rfl | rfl
    · rfl
    · simp [Detector.news, plain]
  · exact .refl m

end

/-! ### Adoptions -/

/-- A newer view without the member ends its part in the group. -/
structure Expels (m : Manager) (view : View) (n : Manager) : Prop where
  newer : ∃ current, m.view = some current ∧ current.id < view.id
  absent : view.contains m.self = false
  active : m.phase = .joining ∨ m.phase = .running
  phase : n.phase = .expelled
  self : n.self = m.self
  kept : n.view = m.view
  departed : n.departed = m.departed
  detector : n.detector = none
  told : n.notices = m.notices ++ [.event (.expelled view)]

/-- A newer view with the member becomes its view. -/
structure Installs (m : Manager) (view : View) (n : Manager) : Prop where
  newer : ∀ v, m.view = some v → v.id < view.id
  present : view.contains m.self = true
  phase : n.phase = m.phase
  self : view.get? m.self = some n.self
  taken : n.view = some view
  departed : n.departed = m.departed ++ view.crashed ++ view.shutdown
  watched : n.watched = m.watched
  /-- The first view starts the detector, and each later one is news for it. -/
  first : m.view = none → n.watch = m.watch ∧
    n.detector = if m.watched then
      some (Detector.create n.self view m.detectorSettings m.policy m.now).start else m.detector
  later : m.view ≠ none → n.detector = m.detector ∧
    n.watch = if m.watched then (m.watch.send (.viewInstalled view)).1 else m.watch
  told : ∃ more, n.notices = m.notices ++ more ∧ tidings more = view.diff m.view

section
variable (m : Manager)

theorem notices_events (events : List View.Event) :
    events.foldl (fun m e => m.notice (.event e)) m =
      { m with notices := m.notices ++ events.map .event } := by
  induction events generalizing m with
  | nil => simp
  | cons e rest ih =>
    rw [List.foldl_cons, ih]
    simp [notice]

theorem startDetector_eq (view : View) : m.startDetector view = { m with
    detector := if m.watched then
      some (Detector.create m.self view m.detectorSettings m.policy m.now).start else m.detector } := by
  unfold startDetector
  split <;> rfl

theorem feed_eq (event : Detector.Event) : m.feed event = { m with
    watch := if m.watched then (m.watch.send event).1 else m.watch
    notices := m.notices ++ if m.watched then [.actor .watch] else [] } := by
  unfold feed
  split
  · rfl
  · simp

/-- A member with a new view knows itself as the view does, and who is gone. -/
def entered (view : View) : Manager :=
  { m.resolved view with
    departed := m.departed ++ view.crashed ++ view.shutdown
    statistics := ((m.statistics.count .viewsInstalled).add .membersCrashed
      view.crashed.length).add .membersDeparted view.shutdown.length }

/-- The detector starts with the first view, and is told of each later one. -/
def watching (previous : Option View) (view : View) : Manager :=
  previous.elim ((m.entered view).startDetector view) fun _ =>
    (m.entered view).feed (.viewInstalled view)

/-- What an installation tells comes last, and then some connections end. -/
theorem installed_eq (previous : Option View) (view : View) : ∃ partings, tidings partings = [] ∧
    m.installed previous view = { m.watching previous view with
      notices := (m.watching previous view).notices ++ (view.diff previous).map .event ++ partings } := by
  cases previous with
  | none =>
    refine ⟨[], rfl, ?_⟩
    simp only [installed, notices_events, List.append_nil]
    rfl
  | some previous =>
    simp only [installed, notices_events]
    split
    · rename_i same _
      cases same
      split
      · exact ⟨[], rfl, by simp only [List.append_nil]; rfl⟩
      · exact ⟨[_], rfl, rfl⟩
    · exact ⟨[], rfl, by simp only [List.append_nil]; rfl⟩

theorem resolved_get? {view : View} (present : view.contains m.self = true) :
    view.get? m.self = some (m.resolved view).self := by
  unfold resolved
  cases known : view.get? m.self with
  | some found => rfl
  | none =>
    obtain ⟨x, member, same⟩ := (Member.isIn_iff _ _).mp present
    exact absurd same (List.find?_eq_none.mp known x member)

theorem installs_installed {view : View} (newer : ∀ v, m.view = some v → v.id < view.id)
    (present : view.contains m.self = true) :
    Installs m view (({ m with view := some view } : Manager).installed m.view view) := by
  obtain ⟨partings, silent, same⟩ := installed_eq { m with view := some view } m.view view
  have resolves := resolved_get? m present
  rw [same]
  cases known : m.view with
  | none =>
    simp only [watching, Option.elim_none, startDetector_eq]
    refine ⟨newer, present, rfl, resolves, rfl, rfl, rfl, fun _ => ⟨rfl, rfl⟩, by simp [known], ?_⟩
    exact ⟨_, List.append_assoc _ _ _, by simp [silent, known]⟩
  | some current =>
    simp only [watching, Option.elim_some, feed_eq]
    refine ⟨newer, present, rfl, resolves, rfl, rfl, rfl, by simp [known], fun _ => ⟨rfl, rfl⟩, ?_⟩
    refine ⟨_, (List.append_assoc _ _ _).trans (List.append_assoc _ _ _), ?_⟩
    have quiet : tidings (if m.watched then [.actor .watch] else []) = [] := by split <;> rfl
    simp only [tidings_append, tidings_events, silent, List.append_nil, known]
    exact (congrArg (· ++ _) quiet).trans (List.nil_append _)

theorem adopt_cases (view : View) :
    m.adopt view = m ∨ Expels m view (m.adopt view) ∨ Installs m view (m.adopt view) := by
  unfold adopt
  cases known : m.view with
  | none =>
    dsimp only
    split
    · rename_i present
      refine Or.inr (Or.inr ?_)
      have installs := installs_installed m (by simp [known]) present
      rwa [known] at installs
    · exact Or.inl rfl
  | some current =>
    dsimp only
    split
    · exact Or.inl rfl
    · rename_i ahead
      have newer := Int32.not_le.mp ahead
      split
      · rename_i present
        refine Or.inr (Or.inr ?_)
        have installs := installs_installed m
          (fun v found => Option.some.inj (known.symm.trans found) ▸ newer) present
        rwa [known] at installs
      · rename_i absent
        have expels : ∀ {n : Manager}, m.phase = .joining ∨ m.phase = .running →
            n = { m.stopDetector with phase := .expelled }.notice (.event (.expelled view)) →
            Expels m view n := by
          rintro n active rfl
          exact ⟨⟨current, known, newer⟩, Bool.eq_false_iff.mpr absent, active, rfl, rfl, rfl, rfl,
            rfl, rfl⟩
        unfold expel
        split
        · rename_i joining
          exact Or.inr (Or.inl (expels (Or.inl joining) rfl))
        · rename_i running
          exact Or.inr (Or.inl (expels (Or.inr running) rfl))
        · exact Or.inl rfl
        · exact Or.inl rfl

end

end Manager

end Cohort
