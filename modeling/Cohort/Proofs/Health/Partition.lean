import Mathlib.Data.List.Induction
import Mathlib.Data.List.Infix
import Cohort.Proofs.Health.Decline
import Cohort.Proofs.Health.Loss

/-! A declared partition. As long as it is declared too much of the view is unwell, so no check that
fails leads to a removal, and the partition is announced once. It ends when enough members have
answered, or with a new view. All this takes views whose weight is a number of 32 bits. -/

namespace Cohort.Detector

/-- The members of the view that are followed and not well, as the view describes them. -/
def unwell (d : Detector) : List Member := d.membersIn [.suspected, .finalCheck, .removed]

theorem mem_unwell (d : Detector) (m : Member) :
    m ∈ d.unwell ↔ m ∈ d.view.members ∧ ∃ h, d.health.get? m = some h ∧ h.state ≠ .alive := by
  have states : ∀ s : HealthState, s ∈ [.suspected, .finalCheck, .removed] ↔ s ≠ .alive := by
    intro s
    cases s <;> simp
  simp only [unwell, mem_membersIn, states]

theorem unreachable_declared {d : Detector} (declared : d.partitioned = true) :
    d.unreachable = d.unwell := by
  simp only [unreachable, declared, if_true, unwell]

theorem unreachable_subset (d : Detector) : d.unreachable ⊆ d.unwell := by
  intro m member
  cases declared : d.partitioned with
  | true => exact unreachable_declared declared ▸ member
  | false =>
    simp only [unreachable, declared, Bool.false_eq_true, if_false, mem_membersIn] at member
    obtain ⟨present, h, known, state⟩ := member
    refine (mem_unwell d m).mpr ⟨present, h, known, ?_⟩
    intro alive
    simp [alive] at state

/-- So much is unwell that the view must be split. -/
def Broken (d : Detector) : Prop := (d.policy.assess d.view d.unwell).partitioned = true

theorem broken_of_subset {d e : Detector} (fits : d.policy.Fits d.view) (policy : e.policy = d.policy)
    (view : e.view = d.view) {lost : List Member} (included : lost ⊆ e.unwell)
    (tooMuch : (d.policy.assess d.view lost).partitioned = true) : e.Broken := by
  unfold Broken
  rw [policy, view]
  exact LossPolicy.assess_mono fits (fun m _ member => Member.isIn_of_subset included member) tooMuch

theorem unwell_of_declines {d : Detector} {result : Detector × List Action}
    (declines : Declines d result) : d.unwell ⊆ result.1.unwell := by
  intro m member
  obtain ⟨present, h, known, ill⟩ := (mem_unwell d m).mp member
  refine (mem_unwell _ m).mpr ⟨?_, declines.ill known ill⟩
  rw [declines.continues.view]
  exact present

theorem fits_of_continues {d e : Detector} (continues : Continues d e) (fits : d.policy.Fits d.view) :
    e.policy.Fits e.view := by
  rwa [continues.policy, continues.view]

theorem broken_of_declines {d : Detector} {result : Detector × List Action} (fits : d.policy.Fits d.view)
    (declines : Declines d result) (broken : d.Broken) : result.1.Broken :=
  broken_of_subset fits declines.continues.policy declines.continues.view
    (unwell_of_declines declines) broken

/-- What every move of a detector keeps while it looks for partitions. -/
structure Guarded (d : Detector) : Prop where
  detects : d.settings.partitionDetection = true
  follows : d.Follows
  tidy : ∀ m h, d.health.get? m = some h → h.Tidy
  declared : d.partitioned = true → d.Broken
  fits : d.partitioned = true → d.policy.Fits d.view

theorem guarded_create (self : Member) (view : View) {settings : Settings} (policy : LossPolicy)
    (now : Nat) (detects : settings.partitionDetection = true) :
    (create self view settings policy now).Guarded where
  detects := detects
  follows := follows_create self view settings policy now
  tidy m h known := by
    rcases get?_track self view [] m with same | ⟨-, -, healthy⟩
    · have found : (track self [] view).get? m = some h := known
      rw [same] at found
      contradiction
    · have found : (track self [] view).get? m = some h := known
      cases healthy.symm.trans found
      intro checked
      contradiction
  declared declared := by simp [create] at declared
  fits declared := by simp [create] at declared

theorem guarded_declines {d : Detector} {result : Detector × List Action} (guarded : d.Guarded)
    (declines : Declines d result) (follows : result.1.Follows) : result.1.Guarded where
  detects := by rw [declines.continues.settings, guarded.detects]
  follows := follows
  tidy m h known := declines.tidy known (guarded.tidy m)
  declared declared := by
    rw [declines.partitioned] at declared
    exact broken_of_declines (guarded.fits declared) declines (guarded.declared declared)
  fits declared := by
    rw [declines.partitioned] at declared
    exact fits_of_continues declines.continues (guarded.fits declared)

/-! ### Answers -/

theorem checkHealed_cases (d : Detector) :
    d.checkHealed = d ∧ (d.partitioned = true → d.Broken) ∨
      d.checkHealed = { d with partitioned := false } ∧ d.partitioned = true ∧ ¬ d.Broken := by
  unfold checkHealed Broken
  cases declared : d.partitioned with
  | false => exact Or.inl ⟨by simp, by simp⟩
  | true =>
    rw [unreachable_declared declared]
    cases (d.policy.assess d.view d.unwell).partitioned with
    | true => exact Or.inl ⟨by simp, fun _ => rfl⟩
    | false => exact Or.inr ⟨by simp, rfl, by simp⟩

theorem tidy_recover {d : Detector} (tidy : ∀ m h, d.health.get? m = some h → h.Tidy)
    (source : Member) : ∀ m h, (d.recover source).health.get? m = some h → h.Tidy := by
  intro m h known
  unfold recover at known
  rw [get?_mark] at known
  split at known
  · obtain ⟨old, -, rfl⟩ := Option.map_eq_some_iff.mp known
    intro checked
    contradiction
  · exact tidy m h known

theorem guarded_recover {d e : Detector} (guarded : d.Guarded) (declines : Declines d (e, []))
    (source : Member) (follows : (e.recover source).checkHealed.Follows) :
    (e.recover source).checkHealed.Guarded := by
  have detects : e.settings.partitionDetection = true :=
    (congrArg Settings.partitionDetection declines.continues.settings).trans guarded.detects
  have tidy := tidy_recover (fun m h known => declines.tidy known (guarded.tidy m)) source
  rcases checkHealed_cases (e.recover source) with ⟨same, declared⟩ | ⟨ended, -, -⟩
  · rw [same] at follows ⊢
    refine ⟨detects, follows, tidy, declared, fun still => ?_⟩
    have before : d.partitioned = true := declines.partitioned.symm.trans still
    have fits : e.policy.Fits e.view := fits_of_continues declines.continues (guarded.fits before)
    exact fits
  · rw [ended] at follows ⊢
    exact ⟨detects, follows, tidy, by simp, by simp⟩

/-! ### Views -/

theorem install_fields (d : Detector) (view : View) :
    (d.install view).settings = d.settings ∧ (d.install view).policy = d.policy ∧
      (d.install view = d ∨ (d.install view).partitioned = false) := by
  unfold install
  split
  · exact ⟨rfl, rfl, Or.inl rfl⟩
  · exact ⟨rfl, rfl, Or.inr rfl⟩

theorem guarded_install {d : Detector} (guarded : d.Guarded) (view : View) :
    (d.install view).Guarded := by
  obtain ⟨settings, policy, same | ended⟩ := install_fields d view
  · rw [same]
    exact guarded
  · refine ⟨by rw [settings, guarded.detects], follows_install guarded.follows view, ?_, by simp [ended],
      by simp [ended]⟩
    intro m h known
    by_cases older : view.id < d.view.id
    · rw [install_older older] at known
      exact guarded.tidy m h known
    · rcases (get?_install older known).2 with kept | ⟨-, rfl⟩
      · exact guarded.tidy m h kept
      · intro checked
        contradiction

/-! ### Failed checks -/

theorem guarded_declare {d : Detector} (guarded : d.Guarded) (fits : d.policy.Fits d.view)
    (tooMuch : (d.policy.assess d.view d.unreachable).partitioned = true) : d.declare.Guarded := by
  have declines := declare_declines d
  have unwell : d.unreachable ⊆ d.declare.unwell :=
    fun m member => unwell_of_declines declines (unreachable_subset d member)
  refine ⟨?_, ?_, fun m h known => ?_, fun _ => ?_, fun _ => ?_⟩
  · exact (congrArg Settings.partitionDetection declines.continues.settings).trans guarded.detects
  · exact follows_of_quiet guarded.follows (resuspectAll_quiet d d.unreachable)
  · exact declines.tidy known (guarded.tidy m)
  · exact broken_of_subset fits declines.continues.policy declines.continues.view unwell tooMuch
  · have resuspected := fits_of_continues declines.continues fits
    exact resuspected

/-- Nobody is removed while a partition is declared. -/
theorem not_declared_of_removal {d : Detector} (guarded : d.Guarded)
    (bearable : (d.policy.assess d.view d.unreachable).partitioned = false) : d.partitioned = false := by
  refine Bool.eq_false_iff.mpr fun declared => ?_
  have broken := guarded.declared declared
  unfold Broken at broken
  rw [← unreachable_declared declared, bearable] at broken
  contradiction

theorem guarded_undivided {d : Detector} (guarded : d.Guarded) : d.undivided.Guarded :=
  have ended (declared : d.undivided.partitioned = true) : False := by
    simp [undivided, guarded.detects] at declared
  ⟨guarded.detects, guarded.follows, guarded.tidy, fun declared => (ended declared).elim,
    fun declared => (ended declared).elim⟩

theorem guarded_removeFailed {d : Detector} (guarded : d.Guarded) (failed : List Member) :
    (d.removeFailed failed).1.Guarded := by
  rcases removeFailed_cases d failed with ⟨same, -⟩ | ⟨c, -, -, installed⟩
  · rw [same]
    exact guarded
  · rw [installed]
    exact guarded_install guarded _

theorem guarded_conclude {d : Detector} (guarded : d.Guarded) (fits : d.policy.Fits d.view) :
    d.conclude.1.Guarded := by
  rcases conclude_verdict d with ⟨-, same⟩ | ⟨-, tooMuch, same⟩ | ⟨-, -, same⟩
  · rw [same]
    exact guarded
  · rw [same]
    exact guarded_declare guarded fits tooMuch
  · rw [same]
    exact guarded_removeFailed (guarded_undivided guarded) _

theorem guarded_markFailed {d : Detector} (guarded : d.Guarded) (m : Member) (h : Health) :
    (d.markFailed m h).Guarded :=
  guarded_declines guarded (markFailed_declines d m h) (follows_markFailed guarded.follows m h)

/-! ### Runs -/

theorem guarded_move {d : Detector} (guarded : d.Guarded) (fits : d.policy.Fits d.view) (x : Move) :
    (d.move x).1.Guarded := by
  have follows := follows_move guarded.follows x
  cases happening d x with
  | declines declines => exact guarded_declines guarded declines follows
  | recovers e m answer declines moved =>
    rw [moved] at follows ⊢
    exact guarded_recover guarded declines m follows
  | installs view asked moved =>
    rw [moved]
    exact guarded_install guarded view
  | fails m request h o fails known state check same moved =>
    rw [moved]
    exact guarded_conclude (guarded_markFailed guarded m h) fits

theorem guarded_after {d : Detector} (guarded : d.Guarded) (moves : List Move)
    (fits : ∀ part, part <+: moves → (d.after part).policy.Fits (d.after part).view) :
    (d.after moves).Guarded := by
  induction moves generalizing d with
  | nil => exact guarded
  | cons x rest ih =>
    have first : d.policy.Fits d.view := fits [] List.nil_prefix
    exact ih (guarded_move guarded first x) fun part begins =>
      fits (x :: part) (List.cons_prefix_cons.mpr ⟨rfl, begins⟩)

theorem conclude_declared {d : Detector} (guarded : d.Guarded) (declared : d.partitioned = true) :
    d.conclude.2 = [] ∧ d.conclude.1.partitioned = true := by
  rcases conclude_verdict d with ⟨-, same⟩ | ⟨-, -, same⟩ | ⟨bearable, -, -⟩
  · rw [same]
    exact ⟨rfl, declared⟩
  · rw [same, declared]
    exact ⟨rfl, rfl⟩
  · rw [not_declared_of_removal guarded (bearable guarded.detects)] at declared
    contradiction

theorem modest_of_declared {d : Detector} (guarded : d.Guarded) (declared : d.partitioned = true)
    (x : Move) : ∀ a ∈ (d.move x).2, a.isVerdict = false := by
  intro a wanted
  cases happening d x with
  | declines declines => exact declines.modest a wanted
  | recovers e m answer declines moved => simp [moved] at wanted
  | installs view asked moved => simp [moved] at wanted
  | fails m request h o fails known state check same moved =>
    have still : (d.markFailed m h).partitioned = true := declared
    rw [moved, (conclude_declared (guarded_markFailed guarded m h) still).1] at wanted
    contradiction

/-- Only a failed check announces a partition, and only one that was not declared before. -/
theorem declared_of_announced {d : Detector} {x : Move}
    {unreachable : List Member} {lost total : UInt32}
    (wanted : .partitionDetected unreachable lost total ∈ (d.move x).2) :
    d.partitioned = false ∧ (d.move x).1.partitioned = true := by
  cases happening d x with
  | declines declines => simpa [Action.isVerdict] using declines.modest _ wanted
  | recovers e m answer declines moved => simp [moved] at wanted
  | installs view asked moved => simp [moved] at wanted
  | fails m request h o fails known state check same moved =>
    rw [moved] at wanted ⊢
    rcases conclude_verdict (d.markFailed m h) with ⟨-, same⟩ | ⟨-, -, same⟩ | ⟨-, -, same⟩
    · simp [same] at wanted
    · rw [same] at wanted ⊢
      refine ⟨?_, rfl⟩
      have unannounced : (d.markFailed m h).partitioned = d.partitioned := rfl
      dsimp only at wanted
      rw [unannounced] at wanted
      split at wanted
      · contradiction
      · rename_i undeclared
        exact Bool.eq_false_iff.mpr undeclared
    · rw [same] at wanted
      rcases removeFailed_cases _ ((d.markFailed m h).membersIn [.removed]) with
        ⟨-, asks⟩ | ⟨c, -, -, installed⟩
      · obtain ⟨_, _, _, other⟩ := asks _ wanted
        contradiction
      · simp [installed] at wanted

/-- A declared partition ends with an answer after which not too much is unwell, or with a view. -/
theorem ended_of_move {d : Detector} (guarded : d.Guarded) {x : Move} (declared : d.partitioned = true)
    (ended : (d.move x).1.partitioned = false) :
    x.isAnswer = true ∧ ¬ (d.move x).1.Broken ∨
      ∃ view, x = .handle (.viewInstalled view) ∧ ¬ view.id < d.view.id := by
  cases happening d x with
  | declines declines =>
    rw [declines.partitioned, declared] at ended
    contradiction
  | recovers e m answer declines moved =>
    rw [moved] at ended ⊢
    refine Or.inl ⟨answer, ?_⟩
    rcases checkHealed_cases (e.recover m) with ⟨same, -⟩ | ⟨settled, -, healed⟩
    · have still : (e.recover m).partitioned = true := declines.partitioned.trans declared
      dsimp only at ended
      rw [same, still] at ended
      contradiction
    · rw [settled]
      exact healed
  | installs view asked moved =>
    refine Or.inr ⟨view, asked, fun older => ?_⟩
    rw [moved, install_older older, declared] at ended
    contradiction
  | fails m request h o fails known state check same moved =>
    have still : (d.markFailed m h).partitioned = true := declared
    rw [moved, (conclude_declared (guarded_markFailed guarded m h) still).2] at ended
    contradiction

/-- A detector works under the same settings and the same policy all its life. -/
theorem terms_move (d : Detector) (x : Move) :
    (d.move x).1.settings = d.settings ∧ (d.move x).1.policy = d.policy := by
  cases happening d x with
  | declines declines => exact ⟨declines.continues.settings, declines.continues.policy⟩
  | recovers e m answer declines moved =>
    rw [moved]
    have settings : (e.recover m).settings = d.settings := declines.continues.settings
    have policy : (e.recover m).policy = d.policy := declines.continues.policy
    rcases checkHealed_cases (e.recover m) with ⟨healed, -⟩ | ⟨healed, -⟩
    · rw [healed]
      exact ⟨settings, policy⟩
    · rw [healed]
      exact ⟨settings, policy⟩
  | installs view asked moved =>
    rw [moved]
    obtain ⟨settings, policy, -⟩ := install_fields d view
    exact ⟨settings, policy⟩
  | fails m request h o fails known state check same moved =>
    rw [moved]
    rcases conclude_verdict (d.markFailed m h) with
      ⟨-, verdict⟩ | ⟨-, -, verdict⟩ | ⟨-, -, verdict⟩
    · rw [verdict]
      exact ⟨rfl, rfl⟩
    · have continues := (declare_declines (d.markFailed m h)).continues
      rw [verdict]
      exact ⟨continues.settings, continues.policy⟩
    · rw [verdict]
      rcases removeFailed_cases _ ((d.markFailed m h).membersIn [.removed]) with
        ⟨unchanged, -⟩ | ⟨c, -, -, installed⟩
      · rw [unchanged]
        exact ⟨rfl, rfl⟩
      · obtain ⟨settings, policy, -⟩ := install_fields (d.markFailed m h).undivided
          ((d.markFailed m h).undivided.view.successor (d.markFailed m h).undivided.self [] []
            ((d.markFailed m h).membersIn [.removed]))
        rw [installed]
        exact ⟨settings, policy⟩

theorem terms_after (d : Detector) (moves : List Move) :
    (d.after moves).settings = d.settings ∧ (d.after moves).policy = d.policy := by
  induction moves generalizing d with
  | nil => exact ⟨rfl, rfl⟩
  | cons x rest ih =>
    obtain ⟨settings, policy⟩ := terms_move d x
    rw [after_cons, ← settings, ← policy]
    exact ih (d.move x).1

theorem policy_move (d : Detector) (x : Move) : (d.move x).1.policy = d.policy := (terms_move d x).2

theorem policy_after (d : Detector) (moves : List Move) : (d.after moves).policy = d.policy :=
  (terms_after d moves).2

/-! ### Who is left in which state -/

/-- Declaring a partition leaves everybody healthy or suspected, and nobody under a check. -/
theorem calm_of_declare {d : Detector} (guarded : d.Guarded) {k : Member} {h : Health}
    (known : d.declare.health.get? k = some h) :
    (h.state = .alive ∨ h.state = .suspected) ∧ h.finalCheck = none := by
  rcases get?_resuspectAll known with ⟨suspected, unchecked⟩ | ⟨apart, kept⟩
  · exact ⟨Or.inr suspected, unchecked⟩
  · have reachable : ¬ (h.state = .finalCheck ∨ h.state = .removed) := by
      intro state
      rw [isIn_unreachable guarded.follows kept state] at apart
      contradiction
    constructor
    · cases state : h.state <;> simp_all
    · cases checked : h.finalCheck with
      | none => rfl
      | some o =>
        have under := guarded.tidy k h kept (by simp [checked])
        exact absurd (Or.inl under) reachable

/-! ### Every run -/

/-- A partition is declared whenever one of the moves begins. -/
def StaysDeclared (d : Detector) (moves : List Move) : Prop :=
  ∀ part x rest, moves = part ++ x :: rest → (d.after part).partitioned = true

theorem modest_of_staysDeclared {d : Detector} {moves : List Move} (guarded : d.Guarded)
    (declared : d.StaysDeclared moves) : ∀ a ∈ d.wants moves, a.isVerdict = false := by
  induction moves generalizing d with
  | nil => simp [wants]
  | cons x rest ih =>
    have later : (d.move x).1.StaysDeclared rest := fun part y tail split =>
      declared (x :: part) y tail (by rw [split]; rfl)
    intro a wanted
    rcases List.mem_append.mp wanted with now | after
    · exact modest_of_declared guarded (declared [] x rest rfl) x a now
    · have fits := guarded.fits (declared [] x rest rfl)
      exact ih (guarded_move guarded fits x) later a after

/-- In every run of a detector that looks for partitions, in views whose weight 32 bits can hold: as
long as one is declared too much of the view is unwell. From its announcement until it ends nobody is
removed, nobody asks for that, and it is not announced again; it ends with an answer after which not
too much is unwell, or with a view. A failed check that is judged to be part of a partition leaves
everybody healthy or suspected, and under no final check. -/
theorem partition_of_run (self : Member) (view : View) {settings : Settings} (policy : LossPolicy)
    (now : Nat) (moves : List Move) (detects : settings.partitionDetection = true)
    (fits : ∀ part, part <+: moves →
      policy.Fits ((create self view settings policy now).after part).view) :
    let d := (create self view settings policy now).after moves
    (d.partitioned = true → (policy.assess d.view d.unwell).partitioned = true) ∧
      (∀ x unreachable lost total, .partitionDetected unreachable lost total ∈ (d.move x).2 →
        (d.move x).1.partitioned = true ∧
          ∀ stretch, (d.move x).1.StaysDeclared stretch →
            ∀ a ∈ (d.move x).1.wants stretch, a.isVerdict = false) ∧
      (∀ x, d.partitioned = true → (d.move x).1.partitioned = false →
        x.isAnswer = true ∧
            (policy.assess (d.move x).1.view (d.move x).1.unwell).partitioned = false ∨
          ∃ next, x = .handle (.viewInstalled next) ∧ ¬ next.id < d.view.id) ∧
      (∀ m request h, d.health.get? m = some h → h.state = .finalCheck →
        awaits h.finalCheck request = true →
        (policy.assess d.view (d.markFailed m h).unreachable).partitioned = true →
        ∀ k new, (d.onFinalCheckFailed m request).1.health.get? k = some new →
          (new.state = .alive ∨ new.state = .suspected) ∧ new.finalCheck = none) := by
  intro d
  have fresh := guarded_create self view policy now detects
  have judges (part : List Move) : ((create self view settings policy now).after part).policy = policy :=
    policy_after _ part
  have guarded : d.Guarded := guarded_after fresh moves fun part begins => by
    rw [judges]
    exact fits part begins
  have judges : d.policy = policy := judges moves
  have light : d.policy.Fits d.view := by
    rw [judges]
    exact fits moves List.prefix_rfl
  refine ⟨?_, ?_, ?_, ?_⟩
  · intro declared
    rw [← judges]
    exact guarded.declared declared
  · intro x unreachable lost total wanted
    refine ⟨(declared_of_announced wanted).2, fun stretch declared => ?_⟩
    exact modest_of_staysDeclared (guarded_move guarded light x) declared
  · intro x declared ended
    refine (ended_of_move guarded declared ended).imp_left fun ⟨answer, healed⟩ => ⟨answer, ?_⟩
    rw [← judges, ← policy_move d x]
    exact Bool.eq_false_iff.mpr healed
  · intro m request h known state waits tooMuch k new entry
    have marked := guarded_markFailed guarded m h
    have failed : d.onFinalCheckFailed m request = (d.markFailed m h).conclude := by
      simp only [onFinalCheckFailed, known, state, waits, beq_self_eq_true, Bool.and_self, if_true]
      rfl
    rw [← judges] at tooMuch
    rcases conclude_verdict (d.markFailed m h) with ⟨nobody, -⟩ | ⟨-, -, verdict⟩ | ⟨bearable, -, -⟩
    · exact absurd nobody (some_removed_of_markFailed guarded.follows known)
    · rw [failed, verdict] at entry
      exact calm_of_declare marked entry
    · have same : (d.markFailed m h).policy.assess (d.markFailed m h).view =
        d.policy.assess d.view := rfl
      have unbearable := bearable marked.detects
      rw [same, tooMuch] at unbearable
      contradiction

/-- A detector of the first of three members, which checks the others at the first missed heartbeat. -/
def ofThree : Detector :=
  create (.peer 1) ⟨1, .peer 1, [.peer 1, .peer 2, .peer 3], [], []⟩ ⟨⟨1⟩, ⟨1⟩, ⟨1⟩, 1, true, .listed⟩
    (.count 50) 0

/-- Both others fall silent, and the check of one of them fails. -/
def cutOff : List Move :=
  [.handle .heartbeatTick, .handle (.heartbeatTimeout (.peer 2) 1),
    .handle (.heartbeatTimeout (.peer 3) 2), .handle (.finalCheckTimeout (.peer 2) 3)]

theorem ofThree_cutOff : (ofThree.after cutOff).partitioned = true ∧
    ((LossPolicy.count 50).assess (ofThree.after cutOff).view (ofThree.after cutOff).unwell).partitioned
      = true := by
  have fits : ∀ part ∈ cutOff.inits, (LossPolicy.count 50).Fits (ofThree.after part).view := by decide
  have run := partition_of_run _ _ (.count 50) _ cutOff rfl fun part begins =>
    fits part ((List.mem_inits part cutOff).mpr begins)
  exact ⟨by decide, run.1 (by decide)⟩

end Cohort.Detector
