import Mathlib.Data.Finset.Card
import Mathlib.Data.Finset.Lattice.Lemmas
import Mathlib.Data.List.Induction
import Cohort.Proofs.Health.Fate
import Cohort.Proofs.Health.Partition

/-! What a detector holds against a member. As long as a member is in no final check, its missed heartbeats
and its reporters are what came up against it since it last started afresh, and it is checked as soon as
that is enough. -/

namespace Cohort.Detector

/-! ### Evidence -/

/-- The heartbeats that were not answered in time. -/
def missedIn (found : List Evidence) : List UInt64 :=
  found.filterMap fun
    | .missed request => some request
    | .reported _ => none

/-- Those who reported, as often as they did. -/
def reportersIn (found : List Evidence) : List Member :=
  found.filterMap fun
    | .missed _ => none
    | .reported reporter => some reporter

/-- Missed heartbeats, and different reporters. -/
def tally (found : List Evidence) : Nat :=
  (missedIn found).length + ((reportersIn found).map Member.identity).toFinset.card

/-- What comes up against a member in some moves. -/
def testimony (d : Detector) (m : Member) : List Move → List Evidence
  | [] => []
  | x :: rest => (d.evidence m x).toList ++ (d.move x).1.testimony m rest

theorem testimony_append (d : Detector) (m : Member) (first second : List Move) :
    d.testimony m (first ++ second) = d.testimony m first ++ (d.after first).testimony m second := by
  induction first generalizing d with
  | nil => rfl
  | cons x rest ih =>
    rw [List.cons_append, testimony, testimony, ih, List.append_assoc]
    rfl

theorem wants_append (d : Detector) (first second : List Move) :
    d.wants (first ++ second) = d.wants first ++ (d.after first).wants second := by
  induction first generalizing d with
  | nil => rfl
  | cons x rest ih =>
    rw [List.cons_append, wants, wants, ih, List.append_assoc]
    rfl

/-- Reporters are kept once each. -/
theorem identities_addReporter (reporters : List Member) (reporter : Member)
    (distinct : (reporters.map Member.identity).Nodup) :
    ((addReporter reporters reporter).map Member.identity).Nodup ∧
      ((addReporter reporters reporter).map Member.identity).toFinset =
        insert reporter.identity (reporters.map Member.identity).toFinset := by
  have known : reporter.isIn reporters = true ↔ reporter.identity ∈ reporters.map Member.identity := by
    rw [Member.isIn_iff, List.mem_map]
    refine exists_congr fun k => and_congr_right fun _ => ?_
    rw [Member.same_iff]
    exact eq_comm
  unfold addReporter
  split
  · rename_i there
    refine ⟨distinct, ?_⟩
    rw [Finset.insert_eq_of_mem (List.mem_toFinset.mpr (known.mp there))]
  · rename_i new
    have unknown : reporter.identity ∉ reporters.map Member.identity := fun there => new (known.mpr there)
    constructor
    · rw [List.map_append, List.map_singleton]
      exact distinct.append (List.nodup_singleton _) (by simpa using unknown)
    · ext identity
      simp

/-- As many reporters are kept as there are different ones. -/
theorem length_reporters (found : List Member) :
    (found.foldl addReporter []).length = (found.map Member.identity).toFinset.card := by
  suffices kept : ∀ reporters : List Member, (reporters.map Member.identity).Nodup →
      ((found.foldl addReporter reporters).map Member.identity).Nodup ∧
        ((found.foldl addReporter reporters).map Member.identity).toFinset =
          (reporters.map Member.identity).toFinset ∪ (found.map Member.identity).toFinset by
    obtain ⟨distinct, same⟩ := kept [] .nil
    rw [← List.length_map, ← List.toFinset_card_of_nodup distinct, same]
    simp
  induction found with
  | nil => exact fun reporters distinct => ⟨distinct, by simp⟩
  | cons reporter rest ih =>
    intro reporters distinct
    obtain ⟨distinct', same⟩ := identities_addReporter reporters reporter distinct
    obtain ⟨all, union⟩ := ih _ distinct'
    refine ⟨all, union.trans ?_⟩
    rw [same]
    ext identity
    simp

theorem missedIn_append (found more : List Evidence) :
    missedIn (found ++ more) = missedIn found ++ missedIn more := List.filterMap_append

theorem tally_of_unreported {found : List Evidence} (unreported : reportersIn found = []) :
    tally found = (missedIn found).length := by
  rw [tally, unreported]
  rfl

/-! ### What is held against a member -/

namespace Standing

/-- What is held against a member is what was found. -/
structure Holds (s : Standing) (found : List Evidence) : Prop where
  missed : s.missed = (missedIn found).length
  reporters : s.reporters = (reportersIn found).foldl addReporter []

variable {s : Standing} {found : List Evidence}

theorem Holds.corroborations (holds : s.Holds found) : s.corroborations = tally found := by
  rw [Standing.corroborations, tally, holds.missed, holds.reporters, length_reporters]

theorem Holds.weigh (holds : s.Holds found) (e : Evidence) : (s.weigh e).Holds (found ++ [e]) := by
  cases e with
  | missed request =>
    constructor
    · rw [missedIn, List.filterMap_append, List.length_append]
      exact congrArg (· + 1) holds.missed
    · rw [reportersIn, List.filterMap_append, List.foldl_append]
      exact holds.reporters
  | reported reporter =>
    constructor
    · rw [missedIn, List.filterMap_append, List.length_append]
      exact holds.missed
    · rw [reportersIn, List.filterMap_append, List.foldl_append]
      exact congrArg (addReporter · reporter) holds.reporters

theorem Holds.weighAny (holds : s.Holds found) (e : Option Evidence) :
    (e.elim s s.weigh).Holds (found ++ e.toList) := by
  cases e with
  | none => simpa using holds
  | some e => exact holds.weigh e

/-- Nothing is held against a member that is alive, and less than is needed for a final check against one
that is under none. -/
structure Sound (threshold : Nat) (s : Standing) : Prop where
  spotless : s.state = .alive → s.missed = 0 ∧ s.reporters = []
  below : s.Calm → s.corroborations < threshold

variable {threshold : Nat}

theorem Sound.of_cleared (positive : 1 ≤ threshold) (missed : s.missed = 0) (reporters : s.reporters = []) :
    s.Sound threshold := by
  refine ⟨fun _ => ⟨missed, reporters⟩, fun _ => ?_⟩
  rw [corroborations, missed, reporters]
  exact positive

theorem Sound.of_not_calm (beyond : ¬ s.Calm) : s.Sound threshold :=
  ⟨fun alive => absurd (Or.inl alive) beyond, fun calm => absurd calm beyond⟩

end Standing

/-! ### One move -/

/-- A member starts afresh: the detector begins to follow it, hears from it, or pardons it. -/
def Renews (d : Detector) (m : Member) (x : Move) : Prop :=
  d.Enters m x ∨ d.Accepts m x ∨ d.Pardons m x

section
variable {d : Detector} {m : Member} {x : Move} {s s' : Standing} {threshold : Nat}

theorem accepts_only (accepts : d.Accepts m x) : d.evidence m x = none ∧ x.asksRemoval m = false := by
  cases x with
  | handle event =>
    cases event with
    | heartbeatResponse | finalCheckResponse => exact ⟨rfl, rfl⟩
    | _ => contradiction
  | _ => contradiction

theorem pardons_only (pardons : d.Pardons m x) : d.evidence m x = none ∧ x.asksRemoval m = false := by
  cases x with
  | handle event =>
    cases event with
    | finalCheckTimeout | finalCheckFailed => exact ⟨rfl, rfl⟩
    | _ => contradiction
  | _ => contradiction

theorem asksRemoval_only (asks : x.asksRemoval m = true) : d.evidence m x = none := by
  cases x with
  | handle event =>
    cases event with
    | removeRequested => rfl
    | _ => contradiction
  | _ => contradiction

theorem not_renews (known : d.standing m = some s) (unheard : ¬ d.Accepts m x)
    (unpardoned : ¬ d.Pardons m x) : ¬ d.Renews m x := by
  rintro (⟨unknown, -⟩ | accepts | pardons)
  · rw [known] at unknown
    contradiction
  · exact unheard accepts
  · exact unpardoned pardons

/-- A member does not start afresh with what speaks against it. -/
theorem not_renews_of_evidence {e : Evidence} (known : d.standing m = some s)
    (found : d.evidence m x = some e) : ¬ d.Renews m x := by
  apply not_renews known
  · intro accepts
    rw [(accepts_only accepts).1] at found
    contradiction
  · intro pardons
    rw [(pardons_only pardons).1] at found
    contradiction

theorem owes_of_missed {request : UInt64} (known : d.standing m = some s)
    (found : d.evidence m x = some (.missed request)) : s.owes = some request := by
  cases x with
  | handle event =>
    cases event with
    | heartbeatTimeout target asked =>
      obtain ⟨⟨-, owes⟩, rfl⟩ : (target.same m = true ∧ s.owes = some asked) ∧ asked = request := by
        simpa [evidence, known] using found
      exact owes
    | suspectReceived reporter suspects => simp [evidence] at found
    | _ => contradiction
  | _ => contradiction

theorem Fate.sound (fate : Fate d m x) (positive : 1 ≤ threshold)
    (same : d.settings.suspectThreshold = threshold)
    (before : ∀ s, d.standing m = some s → s.Sound threshold) (known : (d.move x).1.standing m = some s') :
    s'.Sound threshold := by
  have is : ∀ {s}, (d.move x).1.standing m = some s → s = s' := fun after =>
    Option.some.inj (after.symm.trans known)
  cases fate with
  | absent after =>
    rw [after] at known
    contradiction
  | enters _ after =>
    rw [← is after]
    exact .of_cleared positive rfl rfl
  | spared s old after =>
    rw [← is after]
    exact before s old
  | asked s request old _ _ _ after =>
    rw [← is after]
    exact ⟨(before s old).spotless, (before s old).below⟩
  | stops s old _ after =>
    rw [← is after]
    exact ⟨(before s old).spotless, (before s old).below⟩
  | answers s _ old _ after alive missed reporters =>
    rw [← is after]
    refine .of_cleared positive missed ?_
    rcases reporters with none | ⟨alive, kept⟩
    · exact none
    · exact kept.trans ((before s old).spotless alive).2
  | pardoned s old _ after =>
    rw [← is after]
    exact .of_cleared positive rfl rfl
  | weighs s e _ _ _ weighed =>
    cases weighed with
    | below less after =>
      rw [← is after]
      refine ⟨fun alive => ?_, fun _ => same ▸ less⟩
      cases e <;> contradiction
    | enough _ _ after state =>
      rw [← is after]
      exact .of_not_calm (by simp [Standing.Calm, state])
  | suspected _ _ _ _ _ after state =>
    rw [← is after]
    exact .of_not_calm (by simp [Standing.Calm, state])
  | outside _ _ _ _ after still =>
    rw [← is after]
    exact .of_not_calm still

/-- How a member came to be under no final check: it started afresh, or it was under none before and now
holds what was found against it besides. -/
inductive Calmed (d : Detector) (m : Member) (x : Move) (s' : Standing) : Prop where
  | renewed (renews : d.Renews m x) (missed : s'.missed = 0) (reporters : s'.reporters = [])
  | continued (s : Standing) (before : d.standing m = some s) (calm : s.Calm) (steady : ¬ d.Renews m x)
      (missed : s'.missed = ((d.evidence m x).elim s s.weigh).missed)
      (reporters : s'.reporters = ((d.evidence m x).elim s s.weigh).reporters)
      (owed : x ≠ .stop → s.owes.toList ++ beats m (d.move x).2 =
        missedIn (d.evidence m x).toList ++ s'.owes.toList)

theorem Fate.calmed (fate : Fate d m x) (sound : ∀ s, d.standing m = some s → s.Sound threshold)
    (known : (d.move x).1.standing m = some s') (calm : s'.Calm) : Calmed d m x s' := by
  have is : ∀ {s}, (d.move x).1.standing m = some s → s = s' := fun after =>
    Option.some.inj (after.symm.trans known)
  cases fate with
  | absent after =>
    rw [after] at known
    contradiction
  | enters before after =>
    obtain rfl := is after
    refine .renewed (.inl ⟨before, ?_⟩) rfl rfl
    rw [after]
    exact Option.some_ne_none _
  | spared s before after unasked _ unweighed unheard unpardoned =>
    obtain rfl := is after
    have none := (unweighed calm).1
    refine .continued s before calm (not_renews before unheard unpardoned) ?_ ?_ fun _ => ?_
    · rw [none]
      rfl
    · rw [none]
      rfl
    · rw [none, unasked, List.append_nil]
      rfl
  | asked s request before calm idle round after asked =>
    obtain rfl := is after
    subst round
    refine .continued s before calm (not_renews before id id) rfl rfl fun _ => ?_
    rw [asked, idle]
    rfl
  | stops s before stop after =>
    obtain rfl := is after
    subst stop
    exact .continued s before calm (not_renews before id id) rfl rfl fun running => absurd rfl running
  | answers s _ before accepts after alive missed reporters =>
    obtain rfl := is after
    refine .renewed (.inr (.inl accepts)) missed ?_
    rcases reporters with none | ⟨alive, kept⟩
    · exact none
    · exact kept.trans ((sound s before).spotless alive).2
  | pardoned s before pardons after =>
    obtain rfl := is after
    exact .renewed (.inr (.inr pardons)) rfl rfl
  | weighs s e before calm' found weighed =>
    cases weighed with
    | below less after unasked =>
      obtain rfl := is after
      refine .continued s before calm' (not_renews_of_evidence before found) ?_ ?_ fun _ => ?_
      · rw [found]
        rfl
      · rw [found]
        rfl
      · rw [found, unasked, List.append_nil]
        cases e with
        | missed request =>
          rw [owes_of_missed before found]
          rfl
        | reported reporter => rfl
    | enough _ _ after state =>
      obtain rfl := is after
      simp [Standing.Calm, state] at calm
  | suspected _ _ _ _ _ after state =>
    obtain rfl := is after
    simp [Standing.Calm, state] at calm
  | outside _ _ _ _ after still =>
    obtain rfl := is after
    contradiction

/-- A member under no final check is sent one as soon as its removal is requested or enough is found. -/
theorem Fate.checks_iff (fate : Fate d m x) (known : d.standing m = some s) (calm : s.Calm)
    (sound : s.Sound d.settings.suspectThreshold) :
    checks m (d.move x).2 ≠ [] ↔ x.asksRemoval m = true ∨
      d.settings.suspectThreshold ≤ ((d.evidence m x).elim s s.weigh).corroborations := by
  have is : ∀ {s₀}, d.standing m = some s₀ → s₀ = s := fun before =>
    Option.some.inj (before.symm.trans known)
  have spared : checks m (d.move x).2 = [] → d.evidence m x = none ∧ x.asksRemoval m = false →
      (checks m (d.move x).2 ≠ [] ↔ x.asksRemoval m = true ∨
        d.settings.suspectThreshold ≤ ((d.evidence m x).elim s s.weigh).corroborations) := by
    rintro unchecked ⟨unweighed, unasked⟩
    simp [unchecked, unweighed, unasked, sound.below calm]
  cases fate with
  | absent _ unchecked unweighed => exact spared unchecked (unweighed s known)
  | enters before =>
    rw [before] at known
    contradiction
  | spared _ before _ _ unchecked unweighed =>
    obtain rfl := is before
    exact spared unchecked (unweighed calm)
  | asked _ _ _ _ _ round _ _ unchecked =>
    subst round
    exact spared unchecked ⟨rfl, rfl⟩
  | stops _ _ stop =>
    subst stop
    exact spared rfl ⟨rfl, rfl⟩
  | answers _ _ _ accepts _ _ _ _ unchecked => exact spared unchecked (accepts_only accepts)
  | pardoned _ _ pardons _ unchecked => exact spared unchecked (pardons_only pardons)
  | weighs _ e before _ found weighed =>
    obtain rfl := is before
    have unasked : x.asksRemoval m = false := Bool.eq_false_iff.mpr fun asks => by
      rw [asksRemoval_only asks] at found
      contradiction
    cases weighed with
    | below less _ _ unchecked => simp [unchecked, found, unasked, less]
    | enough reached _ _ _ _ checked =>
      obtain ⟨request, checked⟩ := checked
      simp [checked, found, reached]
  | suspected _ _ _ _ asks _ _ checked =>
    obtain ⟨request, checked⟩ := checked
    simp [checked, asks]
  | outside _ _ before beyond =>
    obtain rfl := is before
    contradiction

/-- Only members under no final check are sent one, and a single one. -/
theorem Fate.calm_of_checked (fate : Fate d m x) (checked : checks m (d.move x).2 ≠ []) :
    (∃ s, d.standing m = some s ∧ s.Calm) ∧ ∃ request, checks m (d.move x).2 = [request] := by
  cases fate with
  | weighs s _ before calm _ weighed =>
    cases weighed with
    | below _ _ _ unchecked => contradiction
    | enough _ _ _ _ _ single => exact ⟨⟨s, before, calm⟩, single⟩
  | suspected s _ before calm _ _ _ single => exact ⟨⟨s, before, calm⟩, single⟩
  | stops _ _ stop =>
    subst stop
    contradiction
  | absent _ unchecked | enters _ _ unchecked | spared _ _ _ _ unchecked | asked _ _ _ _ _ _ _ _ unchecked
    | answers _ _ _ _ _ _ _ _ unchecked | pardoned _ _ _ _ unchecked | outside _ _ _ _ _ _ unchecked =>
    contradiction

end

/-! ### Runs -/

/-- What every move of a detector with a threshold keeps. -/
structure Fair (d : Detector) (threshold : Nat) : Prop where
  follows : d.Follows
  ordered : d.health.Ordered
  same : d.settings.suspectThreshold = threshold
  positive : 1 ≤ threshold
  sound : ∀ m s, d.standing m = some s → s.Sound threshold

section
variable {d : Detector} {m : Member} {threshold : Nat}

/-- At first nothing is held against anybody. -/
theorem standing_create {self : Member} {view : View} {settings : Settings} {policy : LossPolicy}
    {now : Nat} {s : Standing}
    (known : (create self view settings policy now).standing m = some s) : s = .fresh := by
  obtain ⟨h, found, rfl⟩ := known_of_standing (Member.same_refl m) known
  have found : (track self [] view).get? m = some h := found
  rcases get?_track self view [] m with unknown | ⟨-, -, healthy⟩
  · rw [unknown] at found
    contradiction
  · rw [healthy] at found
    obtain rfl := Option.some.inj found
    rfl

theorem fair_create (self : Member) (view : View) {settings : Settings} (policy : LossPolicy) (now : Nat)
    (positive : 1 ≤ settings.suspectThreshold) :
    (create self view settings policy now).Fair settings.suspectThreshold where
  follows := follows_create self view settings policy now
  ordered := ordered_create self view settings policy now
  same := rfl
  positive := positive
  sound m s known := by
    rw [standing_create known]
    exact .of_cleared positive rfl rfl

theorem Fair.fate (fair : d.Fair threshold) (m : Member) (x : Move) : Fate d m x :=
  Detector.fate fair.follows fair.ordered m x

theorem fair_move (fair : d.Fair threshold) (x : Move) : (d.move x).1.Fair threshold where
  follows := follows_move fair.follows x
  ordered := ordered_move fair.ordered x
  same := (congrArg Settings.suspectThreshold (terms_move d x).1).trans fair.same
  positive := fair.positive
  sound m _ known := (fair.fate m x).sound fair.positive fair.same (fair.sound m) known

theorem fair_after (fair : d.Fair threshold) (moves : List Move) : (d.after moves).Fair threshold := by
  induction moves generalizing d with
  | nil => exact fair
  | cons x rest ih => exact ih (fair_move fair x)

/-- The moves of the first list end when a member last started afresh, if it ever did; those of the second
one came since. -/
inductive Since (d : Detector) (m : Member) : List Move → List Move → Prop where
  | start : Since d m [] []
  | renewed {before : List Move} {x : Move} (renews : (d.after before).Renews m x) :
      Since d m (before ++ [x]) []
  | later {earlier later : List Move} {x : Move} (since : Since d m earlier later)
      (steady : ¬ (d.after (earlier ++ later)).Renews m x) : Since d m earlier (later ++ [x])

theorem since_exists (d : Detector) (m : Member) (moves : List Move) :
    ∃ earlier later, moves = earlier ++ later ∧ d.Since m earlier later := by
  induction moves using List.reverseRecOn with
  | nil => exact ⟨[], [], rfl, .start⟩
  | append_singleton moves x ih =>
    obtain ⟨earlier, later, rfl, since⟩ := ih
    by_cases renews : (d.after (earlier ++ later)).Renews m x
    · exact ⟨earlier ++ later ++ [x], [], (List.append_nil _).symm, .renewed renews⟩
    · exact ⟨earlier, later ++ [x], List.append_assoc _ _ _, .later since renews⟩

/-- The heartbeat that a member owes an answer to. -/
def owed (d : Detector) (m : Member) : List UInt64 := ((d.standing m).bind (·.owes)).toList

theorem owed_of_standing {s : Standing} (known : d.standing m = some s) : d.owed m = s.owes.toList := by
  rw [owed, known]
  rfl

/-- What a detector holds against a member, and which heartbeats the member was sent, after some moves. -/
structure Booked (d : Detector) (m : Member) (moves : List Move) (s : Standing) : Prop where
  holds : s.Holds (d.testimony m moves)
  /-- Without a stop, every heartbeat timed out or is still waited for. -/
  asked : Move.stop ∉ moves →
    d.owed m ++ beats m (d.wants moves) = missedIn (d.testimony m moves) ++ s.owes.toList

theorem booked_nil {s : Standing} (known : d.standing m = some s) (missed : s.missed = 0)
    (reporters : s.reporters = []) : d.Booked m [] s where
  holds := ⟨missed, reporters⟩
  asked _ := by
    rw [owed_of_standing known]
    exact List.append_nil _

theorem testimony_snoc (d : Detector) (m : Member) (moves : List Move) (x : Move) :
    d.testimony m (moves ++ [x]) = d.testimony m moves ++ ((d.after moves).evidence m x).toList := by
  rw [testimony_append, testimony, testimony, List.append_nil]

theorem wants_snoc (d : Detector) (moves : List Move) (x : Move) :
    d.wants (moves ++ [x]) = d.wants moves ++ ((d.after moves).move x).2 := by
  rw [wants_append, wants, wants, List.append_nil]

theorem booked_snoc {moves : List Move} {x : Move} {s s' : Standing} (booked : d.Booked m moves s)
    (missed : s'.missed = (((d.after moves).evidence m x).elim s s.weigh).missed)
    (reporters : s'.reporters = (((d.after moves).evidence m x).elim s s.weigh).reporters)
    (owed : x ≠ .stop → s.owes.toList ++ beats m ((d.after moves).move x).2 =
      missedIn ((d.after moves).evidence m x).toList ++ s'.owes.toList) : d.Booked m (moves ++ [x]) s' where
  holds := by
    have weighed := booked.holds.weighAny ((d.after moves).evidence m x)
    rw [testimony_snoc]
    exact ⟨missed.trans weighed.missed, reporters.trans weighed.reporters⟩
  asked running := by
    simp only [List.mem_append, List.mem_singleton, not_or] at running
    rw [testimony_snoc, wants_snoc, beats_append, missedIn_append, ← List.append_assoc,
      booked.asked running.1, List.append_assoc, owed fun stop => running.2 stop.symm, List.append_assoc]

/-- When the heartbeat that is waited for times out, and nobody reported the member, all heartbeats did. -/
theorem Booked.unanswered {moves : List Move} {s : Standing} {e : Evidence} (booked : d.Booked m moves s)
    (owes : ∀ request, e = .missed request → s.owes = some request)
    (unreported : reportersIn (d.testimony m moves ++ [e]) = []) (running : Move.stop ∉ moves) :
    d.owed m ++ beats m (d.wants moves) = missedIn (d.testimony m moves ++ [e]) := by
  cases e with
  | missed request =>
    rw [booked.asked running, owes request rfl, missedIn_append]
    rfl
  | reported reporter => simp [reportersIn] at unreported

/-- As long as a member is under no final check, the books on it go back to when it started afresh. -/
theorem Since.booked {earlier later : List Move} (since : d.Since m earlier later) (fair : d.Fair threshold)
    (fresh : ∀ s, d.standing m = some s → s = .fresh) {s : Standing}
    (known : (d.after (earlier ++ later)).standing m = some s) (calm : s.Calm) :
    (d.after earlier).Booked m later s := by
  induction since generalizing s with
  | start =>
    obtain rfl := fresh s known
    exact booked_nil known rfl rfl
  | @renewed before x renews =>
    have here := fair_after fair before
    rw [List.append_nil] at known
    rw [after_snoc] at known ⊢
    cases (here.fate m x).calmed (here.sound m) known calm with
    | renewed _ missed reporters => exact booked_nil known missed reporters
    | continued _ _ _ steady => contradiction
  | @later earlier later x since steady ih =>
    have here := fair_after fair (earlier ++ later)
    rw [← List.append_assoc, after_snoc] at known
    -- Nobody comes out of a final check but by starting afresh, so the member was under none before either.
    cases (here.fate m x).calmed (here.sound m) known calm with
    | renewed renews => contradiction
    | continued s old calm' _ missed reporters owed =>
      rw [after_append] at missed reporters owed
      exact booked_snoc (ih old calm') missed reporters owed

theorem asks_iff (x : Move) : (∃ request, d.Asks x m request) ↔ checks m (d.move x).2 ≠ [] := by
  constructor
  · rintro ⟨request, asks⟩
    exact List.ne_nil_of_mem (mem_checks.mpr asks)
  · intro checked
    obtain ⟨request, member⟩ := List.exists_mem_of_ne_nil _ checked
    exact ⟨request, mem_checks.mp member⟩

/-- What the suspicion of a member amounts to that is under no final check. The moves of the second list
came since the member last started afresh. -/
structure Counts (d : Detector) (m : Member) (earlier later : List Move) (h : Health) : Prop where
  counted : h.corroborations = tally ((d.after earlier).testimony m later)
  spotless : h.state = .alive → h.corroborations = 0
  below : h.corroborations < d.settings.suspectThreshold
  /-- One more missed heartbeat or reporter does not take the count beyond the threshold, so that a number
  of the threshold's size always holds it. -/
  bounded : h.miss.corroborations ≤ d.settings.suspectThreshold ∧
    ∀ reporter, (h.report reporter).corroborations ≤ d.settings.suspectThreshold
  checked : ∀ x, (∃ request, (d.after (earlier ++ later)).Asks x m request) ↔ x.asksRemoval m = true ∨
    ∃ e, (d.after (earlier ++ later)).evidence m x = some e ∧
      tally ((d.after earlier).testimony m later ++ [e]) = d.settings.suspectThreshold
  /-- Without reports a final check takes as many missed heartbeats as the threshold. Unless the
  detector was stopped in between, these are all that the member was sent, one after the other. -/
  unreported : ∀ x request, (d.after (earlier ++ later)).Asks x m request → x.asksRemoval m = false →
    reportersIn ((d.after earlier).testimony m (later ++ [x])) = [] →
      (missedIn ((d.after earlier).testimony m (later ++ [x]))).length = d.settings.suspectThreshold ∧
        (Move.stop ∉ later → (d.after earlier).owed m ++ beats m ((d.after earlier).wants later) =
          missedIn ((d.after earlier).testimony m (later ++ [x])))

theorem Standing.Holds.enough_iff {s : Standing} {found : List Evidence} (holds : s.Holds found)
    (below : s.corroborations < threshold) (e : Option Evidence) :
    threshold ≤ (e.elim s s.weigh).corroborations ↔
      ∃ e', e = some e' ∧ tally (found ++ [e']) = threshold := by
  cases e with
  | none => simpa using below
  | some e =>
    have least := s.corroborations_weigh e
    have counted := (holds.weigh e).corroborations
    have reached : threshold ≤ (s.weigh e).corroborations ↔ tally (found ++ [e]) = threshold := by omega
    simpa using reached

theorem Since.counts {earlier later : List Move} (since : d.Since m earlier later)
    (fair : d.Fair d.settings.suspectThreshold) (fresh : ∀ s, d.standing m = some s → s = .fresh)
    {h : Health}
    (found : (d.after (earlier ++ later)).health.get? m = some h) (calm : h.standing.Calm) :
    d.Counts m earlier later h := by
  have here := fair_after fair (earlier ++ later)
  have known := standing_of_known (Member.same_refl m) found
  have booked := since.booked fair fresh known calm
  have sound := here.sound m _ known
  have below := sound.below calm
  have checked : ∀ x, (∃ request, (d.after (earlier ++ later)).Asks x m request) ↔ x.asksRemoval m = true ∨
      ∃ e, (d.after (earlier ++ later)).evidence m x = some e ∧
        tally ((d.after earlier).testimony m later ++ [e]) = d.settings.suspectThreshold := by
    intro x
    rw [asks_iff, (here.fate m x).checks_iff known calm (here.same ▸ sound), here.same,
      booked.holds.enough_iff below]
  refine ⟨booked.holds.corroborations, ?_, below, ⟨?_, ?_⟩, checked, ?_⟩
  · intro alive
    obtain ⟨missed, reporters⟩ := sound.spotless alive
    rw [Health.corroborations]
    exact congrArg₂ (· + ·) missed (congrArg List.length reporters)
  · exact (h.standing.corroborations_weigh (.missed 0)).trans below
  · intro reporter
    have least := (h.standing.corroborations_weigh (.reported reporter)).trans below
    rw [Health.corroborations, missed_report, reporters_report]
    exact least
  · intro x request asks unasked unreported
    obtain requested | ⟨e, evidence, reached⟩ := (checked x).mp ⟨request, asks⟩
    · rw [unasked] at requested
      contradiction
    · rw [testimony_snoc, ← after_append, evidence, Option.toList_some] at unreported ⊢
      rw [tally_of_unreported unreported] at reached
      refine ⟨reached, booked.unanswered (fun last missed => ?_) unreported⟩
      exact owes_of_missed known (missed ▸ evidence)

end

/-- In every run of a detector with a threshold, what is held against a member that is under no final check
and has failed none counts the heartbeats that it did not answer in time and those who reported it, since it
last started afresh. That is nothing if the member is alive, and never enough: the member is sent a single
final check by the move that makes it enough, or on request. -/
theorem suspicion_counts (self : Member) (view : View) (settings : Settings) (policy : LossPolicy)
    (now : Nat) (positive : 1 ≤ settings.suspectThreshold) (moves : List Move) (m : Member) :
    let fresh := create self view settings policy now
    let d := fresh.after moves
    (∃ earlier later, moves = earlier ++ later ∧ fresh.Since m earlier later) ∧
      (∀ earlier later h, moves = earlier ++ later → fresh.Since m earlier later →
        d.health.get? m = some h →
        h.state = .alive ∨ h.state = .suspected → fresh.Counts m earlier later h) ∧
      ∀ x request, d.Asks x m request → checks m (d.move x).2 = [request] ∧
        ∃ h, d.health.get? m = some h ∧ (h.state = .alive ∨ h.state = .suspected) := by
  intro fresh d
  have fair : fresh.Fair settings.suspectThreshold := fair_create self view policy now positive
  refine ⟨since_exists fresh m moves, ?_, ?_⟩
  · rintro earlier later h rfl since found calm
    exact since.counts fair (fun _ known => standing_create known) found calm
  · intro x request asks
    have checked := (asks_iff x).mp ⟨request, asks⟩
    obtain ⟨⟨s, known, calm⟩, single, alone⟩ := ((fair_after fair moves).fate m x).calm_of_checked checked
    obtain ⟨h, found, rfl⟩ := known_of_standing (Member.same_refl m) known
    have same : request ∈ checks m (d.move x).2 := mem_checks.mpr asks
    rw [alone, List.mem_singleton] at same
    exact ⟨same ▸ alone, h, found, calm⟩

/-- A detector of the first of two members, which checks the second at the second missed heartbeat. -/
def ofTolerant : Detector :=
  let first := Member.peer 1
  create first ⟨1, first, [first, .peer 2], [], []⟩ ⟨⟨1⟩, ⟨1⟩, ⟨1⟩, 2, false, .listed⟩ (.count 50) 0

def missedOnce : List Move :=
  [.handle .heartbeatTick, .handle (.heartbeatTimeout (.peer 2) 1), .handle .heartbeatTick]

theorem since_missedOnce : ofTolerant.Since (.peer 2) [] missedOnce := by
  have first : (ofTolerant.after []).standing (.peer 2) = some .fresh := by decide
  have second : (ofTolerant.after [.handle .heartbeatTick]).standing (.peer 2) =
      some ⟨.alive, some 1, 0, []⟩ := by decide
  have third : (ofTolerant.after [.handle .heartbeatTick, .handle (.heartbeatTimeout (.peer 2) 1)]).standing
      (.peer 2) = some ⟨.suspected, none, 1, []⟩ := by decide
  exact .later (.later (.later .start (not_renews first id id)) (not_renews second id id))
    (not_renews third id id)

theorem ofTolerant_checks : ∃ request, (ofTolerant.after missedOnce).Asks
    (.handle (.heartbeatTimeout (.peer 2) 2)) (.peer 2) request := by
  have standing : (ofTolerant.after missedOnce).standing (.peer 2) =
      some ⟨.suspected, some 2, 1, []⟩ := by decide
  obtain ⟨h, found, same⟩ := known_of_standing (Member.same_refl _) standing
  have suspected : h.state = .suspected := congrArg Standing.state same
  obtain ⟨-, counts, -⟩ :=
    suspicion_counts _ _ ofTolerant.settings _ _ (by decide) missedOnce (.peer 2)
  have counted := counts [] missedOnce h rfl since_missedOnce found (Or.inr suspected)
  exact (counted.checked _).mpr (Or.inr ⟨.missed 2, by decide, by decide⟩)

end Cohort.Detector
