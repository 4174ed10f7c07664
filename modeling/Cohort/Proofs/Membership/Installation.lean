import Cohort.Proofs.Membership.Outcome
import Cohort.Proofs.View.Difference

/-! The views that a member installs, and what it tells of them. Views may come late, repeatedly, out of
order or never; those that are installed are numbered upwards all the same, and whoever follows the
events knows the members of each. -/

namespace Cohort.Manager.Course

/-- A view that a move installed. -/
structure Installation where
  previous : Option View
  view : View
  /-- The member as it knows itself then. -/
  self : Member
  told : List View.Event
  deriving DecidableEq

/-- The installation that a move makes, if it changes the view. -/
def installation? (c : Course) (x : Move) : Option Installation :=
  if (c.move x).manager.view = c.manager.view then none
  else (c.move x).manager.view.map fun view =>
    ⟨c.manager.view, view, (c.move x).manager.self, c.told x⟩

def installations (c : Course) : List Move → List Installation
  | [] => []
  | x :: rest => (c.installation? x).toList ++ (c.move x).installations rest

/-- All that is told in some moves, in order. -/
def stream (c : Course) : List Move → List View.Event
  | [] => []
  | x :: rest => c.told x ++ (c.move x).stream rest

/-- A move that installs nothing. -/
structure Plain (c : Course) (x : Move) : Prop where
  none : c.installation? x = none
  view : (c.move x).manager.view = c.manager.view
  self : (c.move x).manager.self = c.manager.self
  departed : (c.move x).manager.departed = c.manager.departed
  told : ∀ e ∈ c.told x, e.isChange = false ∧ e.installed? = Option.none

section
variable {c : Course}

/-- A move installs nothing, or one view that the member enters. -/
theorem installation_cases (restrained : ∀ w ∈ c.works, w.Restrained) (x : Move) :
    c.Plain x ∨ ∃ view, Enters c.manager view (c.move x).manager ∧
      c.told x = view.diff c.manager.view ∧ c.installation? x =
        some ⟨c.manager.view, view, (c.move x).manager.self, view.diff c.manager.view⟩ := by
  cases outcome_move restrained x with
  | stays same alarms _ =>
    refine Or.inl ⟨by simp [installation?, same.view], same.view, same.self, same.departed, ?_⟩
    intro e member
    cases e <;> first | exact ⟨rfl, rfl⟩ | exact absurd (alarms _ member) (by simp [View.Event.isAlarm])
  | leaves _ view last known =>
    refine Or.inl ⟨by simp [installation?, last.kept], last.kept, last.self, last.departed, ?_⟩
    intro e member
    rw [known] at member
    rw [List.mem_singleton.mp member]
    exact ⟨rfl, rfl⟩
  | enters _ view next known =>
    refine Or.inr ⟨view, next, known, ?_⟩
    have changed : (c.move x).manager.view ≠ c.manager.view := by
      intro same
      rw [next.taken] at same
      exact Int32.lt_irrefl (next.newer view same.symm)
    rw [installation?, if_neg changed, next.taken, known]
    rfl

theorem installations_of_none {x : Move} (none : c.installation? x = none) (rest : List Move) :
    c.installations (x :: rest) = (c.move x).installations rest := by
  rw [installations, none]
  rfl

theorem installations_of_some {x : Move} {i : Installation} (made : c.installation? x = some i)
    (rest : List Move) : c.installations (x :: rest) = i :: (c.move x).installations rest := by
  rw [installations, made]
  rfl

theorem mem_installations_cons {x : Move} {rest : List Move} {i : Installation} :
    i ∈ c.installations (x :: rest) ↔
      c.installation? x = some i ∨ i ∈ (c.move x).installations rest := by
  rw [installations, List.mem_append, Option.mem_toList]

/-- What is installed is newer than what was there. -/
theorem newer_installation (restrained : ∀ w ∈ c.works, w.Restrained) {moves : List Move}
    {i : Installation} (member : i ∈ c.installations moves) {v : View}
    (known : c.manager.view = some v) : v.id < i.view.id := by
  induction moves generalizing c v with
  | nil => simp [installations] at member
  | cons x rest ih =>
    have later := restrained_move restrained x
    rcases installation_cases restrained x with plain | ⟨view, enters, -, made⟩
    · rcases mem_installations_cons.mp member with now | then_
      · simp [plain.none] at now
      · exact ih later then_ (plain.view.trans known)
    · have ahead := enters.newer v known
      rcases mem_installations_cons.mp member with now | then_
      · rw [made, Option.some.injEq] at now
        rw [← now]
        exact ahead
      · exact Int32.lt_trans ahead (ih later then_ enters.taken)

theorem pairwise_installations (restrained : ∀ w ∈ c.works, w.Restrained) (moves : List Move) :
    (c.installations moves).Pairwise fun a b => a.view.id < b.view.id := by
  induction moves generalizing c with
  | nil => exact .nil
  | cons x rest ih =>
    have later := restrained_move restrained x
    rcases installation_cases restrained x with plain | ⟨view, enters, -, made⟩
    · rw [installations_of_none plain.none]
      exact ih later
    · rw [installations_of_some made]
      refine List.pairwise_cons.mpr ⟨fun j member => ?_, ih later⟩
      exact newer_installation later member enters.taken

/-- A member is in all views that it installs, and knows itself as they do. -/
theorem self_installation (restrained : ∀ w ∈ c.works, w.Restrained) {moves : List Move}
    {i : Installation} (member : i ∈ c.installations moves) {owner : Member}
    (own : c.manager.self.same owner = true) :
    i.view.contains owner = true ∧ i.view.get? owner = some i.self := by
  induction moves generalizing c with
  | nil => simp [installations] at member
  | cons x rest ih =>
    have later := restrained_move restrained x
    rcases installation_cases restrained x with plain | ⟨view, enters, -, made⟩
    · rcases mem_installations_cons.mp member with now | then_
      · simp [plain.none] at now
      · exact ih later then_ (plain.self ▸ own)
    · rcases mem_installations_cons.mp member with now | then_
      · rw [made, Option.some.injEq] at now
        rw [← now]
        have described : view.get? owner = view.get? c.manager.self := by
          simp only [View.get?, funext (Member.same_left own)]
        exact ⟨View.contains_congr own view ▸ enters.present, described.trans enters.self⟩
      · exact ih later then_ (Member.same_trans (get?_same enters.self) own)

/-- Each view is installed in place of the one before it. -/
theorem previous_installations (restrained : ∀ w ∈ c.works, w.Restrained) (moves : List Move) :
    (c.installations moves).map (·.previous) =
      (c.manager.view :: (c.installations moves).map (some ·.view)).dropLast := by
  induction moves generalizing c with
  | nil => rfl
  | cons x rest ih =>
    have later := ih (restrained_move restrained x)
    rcases installation_cases restrained x with plain | ⟨view, enters, -, made⟩
    · rw [plain.view] at later
      rw [installations_of_none plain.none]
      exact later
    · rw [enters.taken] at later
      rw [installations_of_some made, List.map_cons, later]
      rfl

/-- The last view that was installed is there at the end, and the member is as it has it. -/
theorem last_installation (restrained : ∀ w ∈ c.works, w.Restrained) (moves : List Move) :
    (c.after moves).manager.view =
        ((c.installations moves).map (some ·.view)).getLastD c.manager.view ∧
      (c.after moves).manager.self =
        ((c.installations moves).map (·.self)).getLastD c.manager.self := by
  induction moves generalizing c with
  | nil => exact ⟨rfl, rfl⟩
  | cons x rest ih =>
    have later := ih (restrained_move restrained x)
    rcases installation_cases restrained x with plain | ⟨view, enters, -, made⟩
    · rw [plain.view, plain.self] at later
      rw [installations_of_none plain.none]
      exact later
    · rw [enters.taken] at later
      rw [installations_of_some made]
      simp only [List.map_cons, List.getLastD_cons]
      exact later

/-- What is told in a move that installs a view is how that view differs. -/
theorem told_installation (restrained : ∀ w ∈ c.works, w.Restrained) {moves : List Move}
    {i : Installation} (member : i ∈ c.installations moves) : i.told = i.view.diff i.previous := by
  induction moves generalizing c with
  | nil => simp [installations] at member
  | cons x rest ih =>
    rcases mem_installations_cons.mp member with now | then_
    · rcases installation_cases restrained x with plain | ⟨view, enters, -, made⟩
      · simp [plain.none] at now
      · rw [made, Option.some.injEq] at now
        rw [← now]
    · exact ih (restrained_move restrained x) then_

/-- Nothing else is told of members that come or go, and no other view is announced. -/
theorem stream_installations (restrained : ∀ w ∈ c.works, w.Restrained) (moves : List Move) :
    (c.stream moves).filterMap View.Event.installed? = (c.installations moves).map (·.view) ∧
      (c.stream moves).filter View.Event.isChange =
        (c.installations moves).flatMap (·.told.filter View.Event.isChange) := by
  induction moves generalizing c with
  | nil => exact ⟨rfl, rfl⟩
  | cons x rest ih =>
    obtain ⟨announced, changes⟩ := ih (restrained_move restrained x)
    rw [stream, List.filterMap_append, List.filter_append, announced, changes]
    rcases installation_cases restrained x with plain | ⟨view, enters, told, made⟩
    · have silent : (c.told x).filterMap View.Event.installed? = [] :=
        List.filterMap_eq_nil_iff.mpr fun e member => (plain.told e member).2
      have calm : (c.told x).filter View.Event.isChange = [] :=
        List.filter_eq_nil_iff.mpr fun e member => by simp [(plain.told e member).1]
      rw [installations_of_none plain.none, silent, calm]
      exact ⟨rfl, rfl⟩
    · rw [installations_of_some made, told, View.diff_installed]
      exact ⟨rfl, rfl⟩

end

/-- In every run the views that a member installs are numbered upwards and contain it, and it knows
itself as the latest of them does. Each is announced once, and the events that are told with it turn
the members of the view before it into its own; none are told at other times. -/
theorem installations_faithful (config : Config) (policy : LossPolicy) (self : Member)
    (channel : Option Net.Endpoint) (rota : Detector.Rota) (moves : List Move) :
    let c := fresh config policy self channel rota
    let made := c.installations moves
    (made.Pairwise fun a b => a.view.id < b.view.id) ∧
    (∀ i ∈ made, i.view.contains self = true ∧ i.view.get? self = some i.self) ∧
    (c.after moves).manager.view = (made.map (some ·.view)).getLastD none ∧
    (c.after moves).manager.self = (made.map (·.self)).getLastD self ∧
    made.map (·.previous) = (none :: made.map (some ·.view)).dropLast ∧
    (∀ i ∈ made, ∀ u, i.previous = some u →
      ∀ m : Member, m.isIn (i.told.foldl View.follow u.members) = i.view.contains m) ∧
    (c.stream moves).filterMap View.Event.installed? = made.map (·.view) ∧
    (c.stream moves).filter View.Event.isChange =
      made.flatMap (·.told.filter View.Event.isChange) := by
  intro c made
  have restrained : ∀ w ∈ c.works, w.Restrained := by simp [c, fresh]
  have last := last_installation restrained moves
  have announced := stream_installations restrained moves
  refine ⟨pairwise_installations restrained moves, fun i member => ?_, last.1, last.2,
    previous_installations restrained moves, fun i member u before m => ?_, announced⟩
  · exact self_installation restrained member (Member.same_refl self)
  · rw [told_installation restrained member, before]
    exact View.isIn_diff i.view u m

end Cohort.Manager.Course
