import Mathlib.Data.List.Induction
import Cohort.Proofs.Health.Order
import Cohort.Proofs.View.Coordinator

/-! Who sees to the members that failed their final check. As long as a detector has somebody REMOVED,
another member than its own should lead the view without those who are, because it is that member who
makes the next view. All work of the detector itself keeps to this; a view from outside may put the
detector's own member in charge and leave it with a REMOVED member that it never removes. -/

namespace Cohort.Detector

/-- Another member than the detector's own leads a view once some of its members are gone. -/
def OtherLeads (d : Detector) (view : View) (gone : List Member) : Prop :=
  ∃ leader, view.coordinatorWithout gone = some leader ∧ leader.same d.self = false

/-- If somebody is REMOVED, another member is there to make the view without it. -/
def Attended (d : Detector) : Prop :=
  ∀ m h, d.health.get? m = some h → h.state = .removed →
    d.OtherLeads d.view (d.membersIn [.removed])

/-- The REMOVED members that a new view still has. -/
def leftBehind (d : Detector) (view : View) : List Member :=
  view.members.filter fun m => d.stateOf m == some .removed

/-- A new view has REMOVED members in it, and nobody but the detector's own member is there to make a
view without them. -/
def Strands (d : Detector) (view : View) : Prop :=
  ¬ view.id < d.view.id ∧ d.leftBehind view ≠ [] ∧ ¬ d.OtherLeads view (d.leftBehind view)

/-- Not so much is unreachable that a failed check would be taken for a partition. -/
def Condemns (d : Detector) : Prop :=
  d.settings.partitionDetection = true → (d.policy.assess d.view d.unreachable).partitioned = false

/-- No other member removes the REMOVED, and the detector's own cannot: it is not in the view, or
there is no number for another view. -/
def Helpless (d : Detector) : Prop :=
  ¬ d.OtherLeads d.view (d.membersIn [.removed]) ∧
    (d.view.coordinatorWithout (d.membersIn [.removed]) = none ∨ d.view.id = View.lastId)

/-- A move leaves a REMOVED member to nobody: a view that strands it, or a failed check at which the
detector is helpless. -/
def Deserts (d : Detector) : Move → Prop
  | .handle (.viewInstalled view) => d.Strands view
  | .handle (.finalCheckTimeout m request) | .handle (.finalCheckFailed m request) =>
    ∃ h, d.health.get? m = some h ∧ h.state = .finalCheck ∧ awaits h.finalCheck request = true ∧
      (d.markFailed m h).Condemns ∧ (d.markFailed m h).Helpless
  | _ => False

/-! ### What the detector does itself -/

section
variable {d : Detector}

theorem attended_iff (follows : d.Follows) : d.Attended ↔
    (d.membersIn [.removed] ≠ [] → d.OtherLeads d.view (d.membersIn [.removed])) := by
  constructor
  · intro attended some
    obtain ⟨m, member⟩ := List.exists_mem_of_ne_nil _ some
    obtain ⟨-, h, known, state⟩ := (mem_membersIn d _ m).mp member
    exact attended m h known (List.mem_singleton.mp state)
  · intro leads m h known state
    refine leads fun nobody => ?_
    have failed := isIn_membersIn follows known (List.mem_singleton.mpr state)
    rw [nobody] at failed
    contradiction

theorem attended_of_none (none : ∀ m h, d.health.get? m = some h → h.state ≠ .removed) : d.Attended :=
  fun m h known state => absurd state (none m h known)

theorem self_not_in (follows : d.Follows) (states : List HealthState) :
    d.self.isIn (d.membersIn states) = false := by
  refine Bool.eq_false_iff.mpr fun failed => ?_
  obtain ⟨x, member, alike⟩ := (Member.isIn_iff _ _).mp failed
  obtain ⟨-, h, known, -⟩ := (mem_membersIn d states x).mp member
  rw [(follows x h known).2] at alike
  contradiction

theorem attended_of_quiet {result : Detector × List Action} (follows : d.Follows)
    (attended : d.Attended) (quiet : Quiet d result) : result.1.Attended := by
  have before : ∀ m h, result.1.health.get? m = some h → h.state = .removed →
      ∃ old, d.health.get? m = some old ∧ old.state = .removed := by
    intro m h known state
    cases quiet.source m h known with
    | calm calm => rcases calm with alive | suspected <;> simp_all
    | kept old known same _ => exact ⟨old, known, same.symm.trans state⟩
    | asked _ _ _ _ checked _ => simp_all
  intro m h known state
  obtain ⟨old, found, removed⟩ := before m h known state
  obtain ⟨leader, leads, other⟩ := attended m old found removed
  have included : ∀ x ∈ d.view.members, x.isIn (result.1.membersIn [.removed]) = true →
      x.isIn (d.membersIn [.removed]) = true := by
    intro x _ failed
    obtain ⟨y, member, alike⟩ := (Member.isIn_iff _ _).mp failed
    obtain ⟨-, h, known, state⟩ := (mem_membersIn _ _ y).mp member
    obtain ⟨old, found, removed⟩ := before y h known (List.mem_singleton.mp state)
    rw [Member.isIn_congr alike]
    exact isIn_membersIn follows found (List.mem_singleton.mpr removed)
  -- Quiet work brings nobody among them, so whoever led leads still, or else one who came back.
  unfold OtherLeads
  rw [quiet.self, quiet.view]
  exact View.coordinatorWithout_of_fewer leads other (self_not_in follows _) included

theorem attended_declare (follows : d.Follows) : d.declare.Attended := by
  refine attended_of_none fun m h known removed => ?_
  rcases get?_resuspectAll known with ⟨suspected, -⟩ | ⟨apart, kept⟩
  · rw [removed] at suspected
    contradiction
  · rw [isIn_unreachable follows kept (Or.inr removed)] at apart
    contradiction

/-- The view that the detector makes itself is without everybody who is REMOVED. -/
theorem attended_remove (follows : d.Follows) (numbered : d.view.id ≠ View.lastId) :
    (d.install (d.view.successor d.self [] [] (d.membersIn [.removed]))).Attended := by
  refine attended_of_none fun m h known removed => ?_
  have newer : ¬ (d.view.successor d.self [] [] (d.membersIn [.removed])).id < d.view.id := by
    have ahead := View.lt_next numbered
    rw [View.successor_id, Int32.lt_iff_toInt_lt] at *
    omega
  obtain ⟨present, kept | ⟨-, rfl⟩⟩ := get?_install newer known
  · have failed := isIn_membersIn follows kept (List.mem_singleton.mpr removed)
    rw [((View.contains_successor d.view d.self m [] _).mp present).2.2] at failed
    contradiction
  · contradiction

/-- The REMOVED are removed by this member or by another one, unless the detector is helpless. -/
theorem attended_removeFailed_iff (follows : d.Follows) (some : d.membersIn [.removed] ≠ []) :
    (d.removeFailed (d.membersIn [.removed])).1.Attended ↔ ¬ d.Helpless := by
  have stays : d.Attended ↔ d.OtherLeads d.view (d.membersIn [.removed]) :=
    (attended_iff follows).trans ⟨fun leads => leads some, fun leads _ => leads⟩
  unfold removeFailed Helpless
  cases elected : d.view.coordinatorWithout (d.membersIn [.removed]) with
  | none =>
    have alone : ¬ d.OtherLeads d.view (d.membersIn [.removed]) := by
      rintro ⟨leader, leads, -⟩
      rw [elected] at leads
      contradiction
    simp [stays, alone]
  | some coordinator =>
    dsimp only
    cases own : coordinator.same d.self with
    | false =>
      have leads : d.OtherLeads d.view (d.membersIn [.removed]) := ⟨coordinator, elected, own⟩
      simp [stays, leads]
    | true =>
      have alone : ¬ d.OtherLeads d.view (d.membersIn [.removed]) := by
        rintro ⟨leader, leads, other⟩
        rw [Option.some.inj (leads.symm.trans elected), own] at other
        contradiction
      simp only [if_true, alone, reduceCtorEq, false_or, not_false_eq_true, true_and]
      by_cases last : d.view.id = View.lastId
      · have older : (d.view.successor d.self [] [] (d.membersIn [.removed])).id < d.view.id := by
          rw [View.successor_id, last]
          decide
        simp only [install_older older, stays, alone, last, not_true_eq_false]
      · simp only [attended_remove follows last, last, not_false_eq_true]

theorem attended_conclude_iff (follows : d.Follows) (some : d.membersIn [.removed] ≠ []) :
    d.conclude.1.Attended ↔ ¬ (d.Condemns ∧ d.Helpless) := by
  rcases conclude_verdict d with ⟨nobody, -⟩ | ⟨detects, tooMuch, same⟩ | ⟨bearable, -, same⟩
  · exact absurd nobody some
  · rw [same]
    refine iff_of_true (attended_declare follows) fun ⟨condemns, _⟩ => ?_
    rw [condemns detects] at tooMuch
    contradiction
  · -- A partition that is over changes neither whom the detector follows nor in which view.
    have undivided : d.undivided.Follows := follows
    rw [same]
    refine (attended_removeFailed_iff undivided some).trans ?_
    exact not_congr ⟨fun helpless => ⟨bearable, helpless⟩, And.right⟩

theorem attended_failure_iff (follows : d.Follows) (attended : d.Attended) (m : Member)
    (request : UInt64) : (d.onFinalCheckFailed m request).1.Attended ↔
      ¬ ∃ h, d.health.get? m = some h ∧ h.state = .finalCheck ∧ awaits h.finalCheck request = true ∧
        (d.markFailed m h).Condemns ∧ (d.markFailed m h).Helpless := by
  unfold onFinalCheckFailed
  cases known : d.health.get? m with
  | none => simpa using attended
  | some h =>
    cases waited : h.state == .finalCheck && awaits h.finalCheck request with
    | false =>
      simp only [waited, Bool.false_eq_true, if_false]
      refine iff_of_true attended ?_
      rintro ⟨_, same, state, waits, -⟩
      cases same
      simp [state, waits] at waited
    | true =>
      obtain ⟨state, waits⟩ := Bool.and_eq_true_iff.mp waited
      have concludes := attended_conclude_iff (follows_markFailed follows m h)
        (some_removed_of_markFailed follows known)
      simp only [waited, if_true]
      refine concludes.trans (not_congr ⟨fun both => ⟨h, rfl, by simpa using state, waits, both⟩, ?_⟩)
      rintro ⟨_, same, -, -, both⟩
      cases same
      exact both

end

/-! ### Views from outside -/

theorem membersIn_install {d : Detector} (ordered : d.health.Ordered) {view : View}
    (newer : ¬ view.id < d.view.id) : (d.install view).membersIn [.removed] = d.leftBehind view := by
  unfold membersIn leftBehind
  rw [install_view newer]
  refine List.filter_congr fun m member => ?_
  have present : view.contains m = true := Member.isIn_of_mem member
  unfold stateOf
  cases known : d.health.get? m with
  | some h =>
    rw [get?_install_of_some ordered newer present known]
    cases state : h.state <;> simp [state]
  | none =>
    cases found : (d.install view).health.get? m with
    | none => simp
    | some h =>
      rcases (get?_install newer found).2 with kept | ⟨-, rfl⟩
      · rw [known] at kept
        contradiction
      · simp

theorem attended_install_iff {d : Detector} (follows : d.Follows) (ordered : d.health.Ordered)
    (attended : d.Attended) (view : View) : (d.install view).Attended ↔ ¬ d.Strands view := by
  by_cases older : view.id < d.view.id
  · rw [install_older older]
    exact iff_of_true attended fun strands => strands.1 older
  · have leads : (d.install view).OtherLeads view (d.leftBehind view) ↔
        d.OtherLeads view (d.leftBehind view) := by
      unfold OtherLeads
      rw [install_self]
    rw [attended_iff (follows_install follows view), membersIn_install ordered older,
      install_view older, leads]
    unfold Strands
    simp [older]

/-! ### Every run -/

theorem attended_move_iff {d : Detector} (follows : d.Follows) (ordered : d.health.Ordered)
    (attended : d.Attended) (x : Move) : (d.move x).1.Attended ↔ ¬ d.Deserts x := by
  have quietly : Quiet d (d.move x) → ((d.move x).1.Attended ↔ ¬ False) := fun quiet =>
    iff_of_true (attended_of_quiet follows attended quiet) id
  cases x with
  | timers schedule => exact quietly (.of_same_health rfl rfl rfl)
  | start => exact quietly (scheduleTick_quiet d ⟨0⟩)
  | stop => exact quietly (stop_quiet d)
  | handle event =>
    cases event with
    | heartbeatTick => exact quietly (onTick_quiet d)
    | heartbeatTimeout member request => exact quietly (onHeartbeatTimeout_quiet d member request)
    | heartbeatResponse source request => exact quietly (onResponse_quiet d source request false)
    | suspectReceived reporter suspects => exact quietly (onSuspects_quiet d reporter suspects)
    | finalCheckResponse source request => exact quietly (onResponse_quiet d source request true)
    | removeRequested requester member _ => exact quietly (onRemoveRequested_quiet d requester member)
    | viewInstalled view => exact attended_install_iff follows ordered attended view
    | finalCheckTimeout m request => exact attended_failure_iff follows attended m request
    | finalCheckFailed m request => exact attended_failure_iff follows attended m request

theorem attended_create (self : Member) (view : View) (settings : Settings) (policy : LossPolicy)
    (now : Nat) : (create self view settings policy now).Attended := by
  refine attended_of_none fun m h known removed => ?_
  have known : (track self [] view).get? m = some h := known
  rcases get?_track self view [] m with same | ⟨-, -, healthy⟩
  · rw [same, Table.get?_nil] at known
    contradiction
  · rw [healthy] at known
    cases known
    contradiction

/-- In every run of a detector: whoever is REMOVED is always left to another member, which leads
without those who are, if and only if no view strands somebody and no failed check finds the detector
helpless. -/
theorem attended_iff_of_run (self : Member) (view : View) (settings : Settings) (policy : LossPolicy)
    (now : Nat) (moves : List Move) :
    let d := create self view settings policy now
    (∀ part rest, moves = part ++ rest → (d.after part).Attended) ↔
      ∀ part x rest, moves = part ++ x :: rest → ¬ (d.after part).Deserts x := by
  intro d
  have step : ∀ part x, (d.after part).Attended →
      (((d.after part).move x).1.Attended ↔ ¬ (d.after part).Deserts x) := fun part x attended =>
    attended_move_iff (follows_after (follows_create self view settings policy now) part)
      (ordered_after (ordered_create self view settings policy now) part) attended x
  constructor
  · intro always part x rest split
    have next := always (part ++ [x]) rest (by simp [split])
    rw [after_snoc] at next
    exact (step part x (always part (x :: rest) split)).mp next
  · intro loyal part
    induction part using List.reverseRecOn with
    | nil => exact fun _ _ => attended_create self view settings policy now
    | append_singleton earlier x ih =>
      intro rest split
      have split : moves = earlier ++ x :: rest := by simpa using split
      rw [after_snoc]
      exact (step earlier x (ih (x :: rest) split)).mpr (loyal earlier x rest split)

/-- A detector of the second of three members, the first of which coordinates. It checks the others at
the first missed heartbeat and does not look for partitions. -/
def ofSecond : Detector :=
  create (.peer 2) ⟨1, .peer 1, [.peer 1, .peer 2, .peer 3], [], []⟩ ⟨⟨1⟩, ⟨1⟩, ⟨1⟩, 1, false, .listed⟩
    (.count 50) 0

/-- The third member falls silent and fails its check, and the first is asked to remove it. But the
first has left and handed over, and its last view still has the third. -/
def inherited : List Move :=
  [.handle .heartbeatTick, .handle (.heartbeatTimeout (.peer 3) 2),
    .handle (.finalCheckTimeout (.peer 3) 3),
    .handle (.viewInstalled ⟨2, .peer 1, [.peer 2, .peer 3], [.peer 1], []⟩)]

theorem inherited_unattended : ¬ (ofSecond.after inherited).Attended := by
  intro attended
  obtain ⟨leader, leads, other⟩ := attended (.peer 3)
    { state := .removed, heartbeat := none, missed := 1 } (by decide) rfl
  have own : (ofSecond.after inherited).view.coordinatorWithout
      ((ofSecond.after inherited).membersIn [.removed]) = some (.peer 2) := by decide
  rw [Option.some.inj (leads.symm.trans own)] at other
  exact absurd other (by decide)

end Cohort.Detector
