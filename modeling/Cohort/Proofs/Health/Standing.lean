import Cohort.Proofs.Health.Attendance
import Cohort.Proofs.Health.Bookkeeping

/-! What one move does to one member. A detector works on many members at once; here its work is seen from
a single one of them, with what speaks against that member, which heartbeat it owes an answer to, and what
it is sent. -/

namespace Cohort.Detector

/-! ### Standing -/

/-- How a member stands with a detector. -/
structure Standing where
  state : HealthState
  /-- The heartbeat that it has not answered. -/
  owes : Option UInt64
  missed : Nat
  reporters : List Member
  deriving DecidableEq, Repr

def Health.standing (h : Health) : Standing := ⟨h.state, h.heartbeat.map (·.request), h.missed, h.reporters⟩

def standing (d : Detector) (m : Member) : Option Standing := (d.health.get? m).map Health.standing

/-- What speaks against a member: a heartbeat that it did not answer in time, or somebody's report. -/
inductive Evidence where
  | missed (request : UInt64)
  | reported (reporter : Member)
  deriving DecidableEq, Repr

/-- Adds a reporter, unless it is there already. -/
def addReporter (reporters : List Member) (reporter : Member) : List Member :=
  if reporter.isIn reporters then reporters else reporters ++ [reporter]

namespace Standing

def fresh : Standing := ⟨.alive, none, 0, []⟩

/-- It is under no final check, and has failed none. -/
def Calm (s : Standing) : Prop := s.state = .alive ∨ s.state = .suspected

instance (s : Standing) : Decidable s.Calm := inferInstanceAs (Decidable (_ ∨ _))

def corroborations (s : Standing) : Nat := s.missed + s.reporters.length

def weigh (s : Standing) : Evidence → Standing
  | .missed _ => { s with state := .suspected, owes := none, missed := s.missed + 1 }
  | .reported reporter =>
    { s with state := .suspected, reporters := addReporter s.reporters reporter }

/-- One piece of evidence adds one at most. -/
theorem corroborations_weigh (s : Standing) (e : Evidence) :
    (s.weigh e).corroborations ≤ s.corroborations + 1 := by
  cases e with
  | missed request =>
    simp only [weigh, corroborations]
    omega
  | reported reporter =>
    simp only [weigh, corroborations, addReporter]
    split
    · omega
    · simp only [List.length_append, List.length_singleton]
      omega

/-- A second report of the same member adds nothing. -/
theorem weigh_again (s : Standing) (reporter : Member) :
    (s.weigh (.reported reporter)).weigh (.reported reporter) = s.weigh (.reported reporter) := by
  have there : reporter.isIn (addReporter s.reporters reporter) = true := by
    unfold addReporter
    split
    · assumption
    · exact Member.isIn_of_mem (List.mem_append_right _ (List.mem_singleton_self reporter))
  simp only [weigh]
  rw [addReporter, if_pos there]

end Standing

theorem reporters_report (h : Health) (reporter : Member) :
    (h.report reporter).reporters = addReporter h.reporters reporter := by
  unfold Health.report addReporter
  split <;> rfl

theorem missed_report (h : Health) (reporter : Member) : (h.report reporter).missed = h.missed := by
  unfold Health.report
  split <;> rfl

/-- The requests of the heartbeats among some actions that go to a member. -/
def beats (m : Member) (actions : List Action) : List UInt64 :=
  actions.filterMap fun
    | .sendHeartbeat target request => if target.same m then some request else none
    | _ => none

/-- The requests of the final checks among some actions that go to a member. -/
def checks (m : Member) (actions : List Action) : List UInt64 :=
  actions.filterMap fun
    | .sendFinalCheck target request => if target.same m then some request else none
    | _ => none

theorem beats_append (m : Member) (a b : List Action) : beats m (a ++ b) = beats m a ++ beats m b :=
  List.filterMap_append

theorem checks_append (m : Member) (a b : List Action) : checks m (a ++ b) = checks m a ++ checks m b :=
  List.filterMap_append

theorem mem_checks {m : Member} {actions : List Action} {request : UInt64} :
    request ∈ checks m actions ↔
      ∃ target, .sendFinalCheck target request ∈ actions ∧ target.same m = true := by
  constructor
  · intro member
    obtain ⟨action, wanted, sent⟩ := List.mem_filterMap.mp member
    cases action with
    | sendFinalCheck target request' =>
      obtain ⟨alike, rfl⟩ : target.same m = true ∧ request' = request := by simpa using sent
      exact ⟨target, wanted, alike⟩
    | _ => contradiction
  · rintro ⟨target, wanted, alike⟩
    exact List.mem_filterMap.mpr ⟨_, wanted, if_pos alike⟩

/-! ### Work on others -/

/-- Work of a detector that leaves a member as it stands and sends it nothing. -/
structure Spares (d : Detector) (m : Member) (result : Detector × List Action) : Prop where
  standing : result.1.standing m = d.standing m
  unasked : beats m result.2 = []
  unchecked : checks m result.2 = []

section
variable {d e : Detector} {m k : Member}

theorem standing_congr (health : e.health = d.health) : e.standing m = d.standing m := by
  rw [standing, health, standing]

theorem standing_update (d : Detector) (k m : Member) (f : Health → Health) :
    (d.update k f).standing m =
      if m.same k then (d.health.get? m).map fun h => (f h).standing else d.standing m := by
  unfold standing
  rw [get?_mark]
  split
  · rw [Option.map_map]
    rfl
  · rfl

theorem Spares.of_health (health : e.health = d.health) : Spares d m (e, []) :=
  ⟨standing_congr health, rfl, rfl⟩

theorem Spares.refl (d : Detector) (m : Member) : Spares d m (d, []) := .of_health rfl

theorem Spares.trans {first second : Detector × List Action} (before : Spares d m first)
    (after : Spares first.1 m second) : Spares d m (second.1, first.2 ++ second.2) where
  standing := after.standing.trans before.standing
  unasked := by rw [beats_append, before.unasked, after.unasked, List.append_nil]
  unchecked := by rw [checks_append, before.unchecked, after.unchecked, List.append_nil]

theorem Spares.announce {actions : List Action} (spares : Spares d m (e, actions)) {news : List Action}
    (unasked : beats m news = []) (unchecked : checks m news = []) : Spares d m (e, news ++ actions) where
  standing := spares.standing
  unasked := by rw [beats_append, unasked, spares.unasked, List.append_nil]
  unchecked := by rw [checks_append, unchecked, spares.unchecked, List.append_nil]

theorem Spares.other (apart : m.same k = false) (f : Health → Health) : Spares d m (d.update k f, []) where
  standing := by
    rw [standing_update, apart]
    rfl
  unasked := rfl
  unchecked := rfl

theorem disarm_spares (ids : List Nat) : Spares d m (d.disarm ids, []) := .of_health rfl

theorem scheduleTick_spares (delay : Span) : Spares d m (d.scheduleTick delay, []) := .of_health rfl

theorem checkHealed_spares : Spares d m (d.checkHealed, []) := by
  unfold checkHealed
  split
  · exact .of_health rfl
  · exact .refl d m

theorem cancelRequests_spares (apart : m.same k = false) : Spares d m (d.cancelRequests k, []) where
  standing := by
    unfold standing
    rw [get?_cancelRequests, apart]
    rfl
  unasked := rfl
  unchecked := rfl

theorem beat_spares (apart : m.same k = false) : Spares d m ((d.beat k).1, [(d.beat k).2]) := by
  have armed : Spares d m
      ((d.request.1.arm d.settings.memberTimeout (.heartbeatTimeout k d.nextRequest)).1, []) :=
        .of_health rfl
  have marked := armed.trans (Spares.other (k := k) apart fun h =>
    { h with heartbeat := some ⟨d.nextRequest, d.timers.nextId⟩ })
  have other : k.same m = false := by rw [Member.same_comm, apart]
  have unasked : beats m [.sendHeartbeat k d.nextRequest] = [] := by simp [beats, other]
  exact marked.announce unasked rfl

theorem beatAll_spares {members : List Member} (apart : ∀ x ∈ members, m.same x = false) :
    Spares d m (d.beatAll members) := by
  induction members generalizing d with
  | nil => exact .refl d m
  | cons x rest ih =>
    have first := beat_spares (d := d) (apart x List.mem_cons_self)
    exact first.trans (ih fun y member => apart y (List.mem_cons_of_mem x member))

theorem beginFinalCheck_spares (apart : m.same k = false) : Spares d m (d.beginFinalCheck k) where
  standing := by
    unfold standing
    rw [get?_beginFinalCheck, apart]
    rfl
  unasked := rfl
  unchecked := by
    have other : k.same m = false := by rw [Member.same_comm, apart]
    simp [beginFinalCheck, checks, other]

theorem checkThreshold_spares (apart : m.same k = false) : Spares d m (d.checkThreshold k) := by
  unfold checkThreshold
  split
  · exact .refl d m
  · split
    · exact beginFinalCheck_spares apart
    · exact .refl d m

/-- What a timeout announces of a member that was alive. -/
def announcement (k : Member) (h : Health) : List Action :=
  if h.state == .alive then [.broadcastSuspect k "heartbeat timed out"] else []

theorem announcement_silent (h : Health) :
    beats m (announcement k h) = [] ∧ checks m (announcement k h) = [] := by
  unfold announcement
  split <;> exact ⟨rfl, rfl⟩

theorem onHeartbeatTimeout_missed {h : Health} {request : UInt64} (known : d.health.get? k = some h)
    (waits : awaits h.heartbeat request = true) :
    d.onHeartbeatTimeout k request = (((d.update k Health.miss).checkThreshold k).1,
      announcement k h ++ ((d.update k Health.miss).checkThreshold k).2) := by
  unfold onHeartbeatTimeout
  simp only [known, waits, Bool.not_true, Bool.false_eq_true, if_false]
  rfl

theorem onHeartbeatTimeout_stale {request : UInt64}
    (stale : ∀ h, d.health.get? k = some h → awaits h.heartbeat request = false) :
    d.onHeartbeatTimeout k request = (d, []) := by
  unfold onHeartbeatTimeout
  cases known : d.health.get? k with
  | none => rfl
  | some h => simp [stale h known]

theorem onHeartbeatTimeout_spares (apart : m.same k = false) (request : UInt64) :
    Spares d m (d.onHeartbeatTimeout k request) := by
  by_cases waits : ∃ h, d.health.get? k = some h ∧ awaits h.heartbeat request = true
  · obtain ⟨h, known, waits⟩ := waits
    obtain ⟨unasked, unchecked⟩ := announcement_silent (m := m) (k := k) h
    rw [onHeartbeatTimeout_missed known waits]
    exact ((Spares.other apart _).trans (checkThreshold_spares apart)).announce unasked unchecked
  · have stale : ∀ h, d.health.get? k = some h → awaits h.heartbeat request = false :=
      fun h known => Bool.eq_false_iff.mpr fun owed => waits ⟨h, known, owed⟩
    rw [onHeartbeatTimeout_stale stale]
    exact .refl d m

theorem onSuspect_spares (apart : m.same k = false) (reporter : Member) :
    Spares d m (d.onSuspect reporter k) := by
  unfold onSuspect
  split
  · exact .refl d m
  · split
    · exact .refl d m
    · split
      · exact .refl d m
      · exact (Spares.other apart _).trans (checkThreshold_spares apart)

theorem onRemoveRequested_spares (apart : m.same k = false) (requester : Member) :
    Spares d m (d.onRemoveRequested requester k) := by
  unfold onRemoveRequested
  split
  · exact .refl d m
  · split
    · exact .refl d m
    · split
      · exact (Spares.other apart _).trans (beginFinalCheck_spares apart)
      · exact (Spares.other apart _).trans (beginFinalCheck_spares apart)
      · exact Spares.other apart _
      · exact .refl d m

theorem settleHeartbeat_spares (apart : m.same k = false) (h : Health) (answered : Bool) :
    Spares d m (d.settleHeartbeat k h answered, []) := by
  unfold settleHeartbeat
  split
  · exact (disarm_spares _).trans (Spares.other apart _)
  · exact .refl d m

theorem onResponse_spares (apart : m.same k = false) (request : UInt64) (final : Bool) :
    Spares d m (d.onResponse k request final, []) := by
  rcases onResponse_cases d k request final with ⟨-, same⟩ | ⟨h, -, ⟨-, same⟩ | ⟨-, same⟩ | same⟩
  · rw [same]
    exact .refl d m
  · rw [same]
    exact .refl d m
  · rw [same]
    exact (settleHeartbeat_spares apart h _).trans (Spares.other apart _)
  · rw [same]
    exact (((settleHeartbeat_spares apart h _).trans (disarm_spares _)).trans
      (Spares.other apart _)).trans checkHealed_spares

theorem markFailed_spares (apart : m.same k = false) (h : Health) : Spares d m (d.markFailed k h, []) :=
  (disarm_spares _).trans (Spares.other apart _)

theorem resuspectAll_spares {members : List Member} (apart : m.isIn members = false) :
    Spares d m (members.foldl resuspect d, []) := by
  induction members generalizing d with
  | nil => exact .refl d m
  | cons x rest ih =>
    obtain ⟨first, later⟩ : m.same x = false ∧ m.isIn rest = false := by
      simpa [Member.isIn, List.any_cons] using apart
    exact ((cancelRequests_spares first).trans (Spares.other first _)).trans (ih later)

end

/-! ### Work on the member itself -/

/-- What comes of new evidence against a member: one final check if it is enough, and nothing else. -/
inductive Weighed (threshold : Nat) (m : Member) (s : Standing) (result : Detector × List Action) :
    Prop where
  | below (less : s.corroborations < threshold) (standing : result.1.standing m = some s)
      (unasked : beats m result.2 = []) (unchecked : checks m result.2 = [])
  | enough (reached : threshold ≤ s.corroborations) (s' : Standing)
    (standing : result.1.standing m = some s')
      (state : s'.state = .finalCheck) (unasked : beats m result.2 = [])
      (checked : ∃ request, checks m result.2 = [request])

section
variable {d e : Detector} {m k : Member} {s : Standing} {threshold : Nat}

theorem known_of_standing (alike : m.same k = true) (known : d.standing m = some s) :
    ∃ h, d.health.get? k = some h ∧ h.standing = s := by
  unfold standing at known
  rw [Table.get?_congr alike] at known
  exact Option.map_eq_some_iff.mp known

theorem standing_of_known (alike : m.same k = true) {h : Health} (found : d.health.get? k = some h) :
    d.standing m = some h.standing := by
  unfold standing
  rw [Table.get?_congr alike, found]
  rfl

theorem standing_own (alike : m.same k = true) {h : Health} (known : d.health.get? k = some h)
    (f : Health → Health) : (d.update k f).standing m = some (f h).standing := by
  rw [standing_update, if_pos alike, Table.get?_congr alike, known]
  rfl

theorem Weighed.announce {actions : List Action} (weighed : Weighed threshold m s (e, actions))
    {news : List Action} (unasked : beats m news = []) (unchecked : checks m news = []) :
    Weighed threshold m s (e, news ++ actions) := by
  cases weighed with
  | below less standing unasked' unchecked' =>
    refine .below less standing ?_ ?_
    · rw [beats_append, unasked, unasked', List.append_nil]
    · rw [checks_append, unchecked, unchecked', List.append_nil]
  | enough reached s' standing state unasked' checked =>
    refine .enough reached s' standing state ?_ ?_
    · rw [beats_append, unasked, unasked', List.append_nil]
    · rw [checks_append, unchecked, List.nil_append]
      exact checked

theorem Weighed.spares {first second : Detector × List Action} (weighed : Weighed threshold m s first)
    (after : Spares first.1 m second) : Weighed threshold m s (second.1, first.2 ++ second.2) := by
  cases weighed with
  | below less standing unasked unchecked =>
    refine .below less (after.standing.trans standing) ?_ ?_
    · rw [beats_append, unasked, after.unasked, List.append_nil]
    · rw [checks_append, unchecked, after.unchecked, List.append_nil]
  | enough reached s' standing state unasked checked =>
    refine .enough reached s' (after.standing.trans standing) state ?_ ?_
    · rw [beats_append, unasked, after.unasked, List.append_nil]
    · rw [checks_append, after.unchecked, List.append_nil]
      exact checked

theorem beginFinalCheck_own (alike : m.same k = true) (known : d.standing m = some s) :
    (d.beginFinalCheck k).1.standing m = some { s with state := .finalCheck, owes := none } ∧
      beats m (d.beginFinalCheck k).2 = [] ∧ ∃ request, checks m (d.beginFinalCheck k).2 = [request] := by
  obtain ⟨h, found, rfl⟩ := known_of_standing alike known
  refine ⟨?_, rfl, ?_⟩
  · unfold standing
    rw [get?_beginFinalCheck, if_pos alike, Table.get?_congr alike, found]
    rfl
  · have named : k.same m = true := by rw [Member.same_comm, alike]
    exact ⟨d.nextRequest, by simp [beginFinalCheck, checks, named, request]⟩

theorem checkThreshold_weighed (alike : m.same k = true) (known : d.standing m = some s)
    (suspected : s.state = .suspected) :
    Weighed d.settings.suspectThreshold m s (d.checkThreshold k) := by
  obtain ⟨h, found, rfl⟩ := known_of_standing alike known
  have state : h.state = .suspected := suspected
  unfold checkThreshold
  rw [found]
  dsimp only
  by_cases reached : d.settings.suspectThreshold ≤ h.corroborations
  · obtain ⟨standing, unasked, checked⟩ := beginFinalCheck_own alike known
    rw [if_pos (by simp [state, reached])]
    exact .enough reached _ standing rfl unasked checked
  · rw [if_neg (by simp [reached])]
    exact .below (Nat.not_le.mp reached) known rfl rfl

theorem checkThreshold_unsuspected (alike : m.same k = true) (known : d.standing m = some s)
    (unsuspected : s.state ≠ .suspected) : d.checkThreshold k = (d, []) := by
  obtain ⟨h, found, rfl⟩ := known_of_standing alike known
  have state : h.state ≠ .suspected := unsuspected
  unfold checkThreshold
  rw [found]
  dsimp only
  rw [if_neg (by simp [state])]

theorem onHeartbeatTimeout_weighed (alike : m.same k = true) (known : d.standing m = some s)
    (calm : s.Calm) {request : UInt64} (owes : s.owes = some request) :
    Weighed d.settings.suspectThreshold m (s.weigh (.missed request)) (d.onHeartbeatTimeout k request) := by
  obtain ⟨h, found, rfl⟩ := known_of_standing alike known
  have waits : awaits h.heartbeat request = true := by
    rw [awaits_iff]
    exact Option.map_eq_some_iff.mp owes
  have missed : (d.update k Health.miss).standing m = some (h.standing.weigh (.missed request)) := by
    rw [standing_own alike found]
    rcases calm with alive | suspected
    · have state : h.state = .alive := alive
      simp [Health.miss, Health.standing, Standing.weigh, state]
    · have state : h.state = .suspected := suspected
      simp [Health.miss, Health.standing, Standing.weigh, state]
  obtain ⟨unasked, unchecked⟩ := announcement_silent (m := m) (k := k) h
  rw [onHeartbeatTimeout_missed found waits]
  exact (checkThreshold_weighed alike missed rfl).announce unasked unchecked

/-- A timeout of a member that is under a final check, or has failed one, has no consequence. -/
theorem onHeartbeatTimeout_outside (alike : m.same k = true) (known : d.standing m = some s)
    (outside : ¬ s.Calm) (request : UInt64) :
    ∃ s', (d.onHeartbeatTimeout k request).1.standing m = some s' ∧ ¬ s'.Calm ∧
      checks m (d.onHeartbeatTimeout k request).2 = [] := by
  obtain ⟨h, found, rfl⟩ := known_of_standing alike known
  by_cases waits : awaits h.heartbeat request = true
  · obtain ⟨-, unchecked⟩ := announcement_silent (m := m) (k := k) h
    have missed := standing_own alike found Health.miss
    have state : (Health.miss h).standing.state = h.state := by
      have ill : h.state ≠ .alive := fun alive => outside (Or.inl alive)
      simp [Health.miss, Health.standing, ill]
    have unsuspected : (Health.miss h).standing.state ≠ .suspected := by
      rw [state]
      exact fun suspected => outside (Or.inr suspected)
    have outside' : ¬ (Health.miss h).standing.Calm := by
      unfold Standing.Calm
      rw [state]
      exact outside
    rw [onHeartbeatTimeout_missed found waits, checkThreshold_unsuspected alike missed unsuspected,
      List.append_nil]
    exact ⟨_, missed, outside', unchecked⟩
  · have stale : ∀ h, d.health.get? k = some h → awaits h.heartbeat request = false := by
      intro h' known'
      obtain rfl : h = h' := Option.some.inj (found.symm.trans known')
      exact Bool.eq_false_iff.mpr waits
    rw [onHeartbeatTimeout_stale stale]
    exact ⟨_, known, outside, rfl⟩

theorem onSuspect_weighed (follows : d.Follows) (alike : m.same k = true) (known : d.standing m = some s)
    (calm : s.Calm) (reporter : Member) :
    Weighed d.settings.suspectThreshold m (s.weigh (.reported reporter)) (d.onSuspect reporter k) := by
  obtain ⟨h, found, rfl⟩ := known_of_standing alike known
  have other : k.same d.self = false := by
    rw [Member.same_comm]
    exact (follows k h found).2
  have free : (h.state == .finalCheck || h.state == .removed) = false := by
    rcases calm with alive | suspected
    · have state : h.state = .alive := alive
      simp [state]
    · have state : h.state = .suspected := suspected
      simp [state]
  have reported : (d.update k fun h => { h.report reporter with state := .suspected }).standing m =
      some (h.standing.weigh (.reported reporter)) := by
    rw [standing_own alike found]
    simp [Health.standing, Standing.weigh, reporters_report, missed_report]
  unfold onSuspect
  simp only [other, found, free, Bool.false_eq_true, if_false]
  exact checkThreshold_weighed alike reported rfl

/-- Whoever is not followed, or not calm, is not suspected. -/
theorem onSuspect_outside (alike : m.same k = true) (outside : ∀ s, d.standing m = some s → ¬ s.Calm)
    (reporter : Member) : Spares d m (d.onSuspect reporter k) := by
  unfold onSuspect
  split
  · exact .refl d m
  · cases found : d.health.get? k with
    | none => exact .refl d m
    | some h =>
      have known := standing_of_known alike found
      have busy : (h.state == .finalCheck || h.state == .removed) = true := by
        cases state : h.state with
        | alive => exact absurd (Or.inl state) (outside _ known)
        | suspected => exact absurd (Or.inr state) (outside _ known)
        | finalCheck | removed => rfl
      simp only [busy, if_true]
      exact .refl d m

theorem onSuspects_outside {reporter : Member} {suspects : List Suspicion}
    (outside : ∀ s, d.standing m = some s → ¬ s.Calm) : Spares d m (d.onSuspects reporter suspects) := by
  induction suspects generalizing d with
  | nil => exact .refl d m
  | cons entry rest ih =>
    have first : Spares d m (d.onSuspect reporter entry.suspect) := by
      cases alike : m.same entry.suspect with
      | true => exact onSuspect_outside alike outside reporter
      | false => exact onSuspect_spares alike reporter
    refine first.trans (ih ?_)
    rw [first.standing]
    exact outside

theorem onSuspects_spares {reporter : Member} {suspects : List Suspicion}
    (apart : suspects.any (·.suspect.same m) = false) : Spares d m (d.onSuspects reporter suspects) := by
  induction suspects generalizing d with
  | nil => exact .refl d m
  | cons entry rest ih =>
    obtain ⟨first, later⟩ := Bool.or_eq_false_iff.mp apart
    have other : m.same entry.suspect = false := by
      rw [Member.same_comm]
      exact first
    exact (onSuspect_spares other reporter).trans (ih later)

/-- However often a report names a member, it counts once. -/
theorem onSuspects_weighed {reporter : Member} {suspects : List Suspicion} (follows : d.Follows)
    (named : suspects.any (·.suspect.same m) = true) (known : d.standing m = some s) (calm : s.Calm) :
    Weighed d.settings.suspectThreshold m (s.weigh (.reported reporter))
      (d.onSuspects reporter suspects) := by
  induction suspects generalizing d s with
  | nil => contradiction
  | cons entry rest ih =>
    have settings : (d.onSuspect reporter entry.suspect).1.settings = d.settings :=
      (onSuspect_declines d reporter entry.suspect).continues.settings
    have follows' := follows_of_quiet follows (onSuspect_quiet d reporter entry.suspect)
    cases alike : m.same entry.suspect with
    | false =>
      have first := onSuspect_spares (d := d) alike reporter
      have later : rest.any (·.suspect.same m) = true := by
        rw [List.any_cons, Member.same_comm, alike, Bool.false_or] at named
        exact named
      have weighed := ih follows' later (first.standing.trans known) calm
      rw [settings] at weighed
      exact weighed.announce first.unasked first.unchecked
    | true =>
      have first := onSuspect_weighed follows alike known calm reporter
      cases first with
      | enough reached s' standing state unasked checked =>
        -- The check is on, and whatever the report says of the member further on is not heard.
        refine (onSuspect_weighed follows alike known calm reporter).spares (onSuspects_outside ?_)
        intro s'' known'
        obtain rfl : s' = s'' := Option.some.inj (standing.symm.trans known')
        simp [Standing.Calm, state]
      | below less standing unasked unchecked =>
        cases again : rest.any (·.suspect.same m) with
        | false =>
          exact (onSuspect_weighed follows alike known calm reporter).spares (onSuspects_spares again)
        | true =>
          have weighed := ih follows' again standing (Or.inr rfl)
          rw [settings, s.weigh_again] at weighed
          exact weighed.announce unasked unchecked

/-- A request to remove a member has it checked at once. -/
theorem onRemoveRequested_own (follows : d.Follows) (alike : m.same k = true)
    (known : d.standing m = some s)
    (calm : s.Calm) (requester : Member) :
    ∃ s', (d.onRemoveRequested requester k).1.standing m = some s' ∧ s'.state = .finalCheck ∧
      ∃ request, checks m (d.onRemoveRequested requester k).2 = [request] := by
  obtain ⟨h, found, rfl⟩ := known_of_standing alike known
  have other : k.same d.self = false := by
    rw [Member.same_comm]
    exact (follows k h found).2
  have marked := standing_own alike found fun h => { h.report requester with state := .suspected }
  obtain ⟨standing, -, checked⟩ := beginFinalCheck_own alike marked
  unfold onRemoveRequested
  rcases calm with alive | suspected
  · have state : h.state = .alive := alive
    simp only [other, found, state, Bool.false_eq_true, if_false]
    exact ⟨_, standing, rfl, checked⟩
  · have state : h.state = .suspected := suspected
    simp only [other, found, state, Bool.false_eq_true, if_false]
    exact ⟨_, standing, rfl, checked⟩

theorem onRemoveRequested_outside (alike : m.same k = true) (known : d.standing m = some s)
    (outside : ¬ s.Calm) (requester : Member) :
    ∃ s', (d.onRemoveRequested requester k).1.standing m = some s' ∧ ¬ s'.Calm ∧
      checks m (d.onRemoveRequested requester k).2 = [] := by
  obtain ⟨h, found, rfl⟩ := known_of_standing alike known
  have reported := standing_own alike found (·.report requester)
  have state : (h.report requester).state = h.state := (report_gentle requester h).1
  unfold onRemoveRequested
  split
  · exact ⟨_, known, outside, rfl⟩
  · simp only [found]
    split
    · exact absurd (Or.inl ‹_›) outside
    · exact absurd (Or.inr ‹_›) outside
    · refine ⟨_, reported, ?_, rfl⟩
      unfold Standing.Calm Health.standing
      rw [state]
      exact outside
    · exact ⟨_, known, outside, rfl⟩

theorem onResponse_unheard {request : UInt64} {final : Bool} {h : Health} (found : d.health.get? k = some h)
    (unheard : h.state = .removed ∨ final = true ∧ awaits h.finalCheck request = false) :
    d.onResponse k request final = d := by
  unfold onResponse
  rcases unheard with removed | ⟨rfl, other⟩
  · simp [found, removed]
  · simp only [found, other, Bool.not_false, Bool.and_self, if_true]
    split <;> rfl

/-- Whoever answers is alive again, with nothing against it. -/
theorem onResponse_own {request : UInt64} {final : Bool} {h : Health} (alike : m.same k = true)
    (found : d.health.get? k = some h) (allowed : h.state ≠ .removed)
    (heard : final = true → awaits h.finalCheck request = true) :
    ∃ s', (d.onResponse k request final).standing m = some s' ∧ s'.state = .alive ∧ s'.missed = 0 ∧
      (s'.reporters = [] ∨ h.state = .alive ∧ s'.reporters = h.reporters) := by
  have settled : ∀ answered, ∃ h', (d.settleHeartbeat k h answered).health.get? k = some h' ∧
      h'.state = h.state ∧ h'.reporters = h.reporters := by
    intro answered
    unfold settleHeartbeat
    split
    · refine ⟨{ h with heartbeat := none }, ?_, rfl, rfl⟩
      rw [get?_mark, if_pos (Member.same_refl k)]
      exact congrArg (Option.map _) found
    · exact ⟨h, found, rfl, rfl⟩
  obtain ⟨h', between, state, reporters⟩ := settled (!final && awaits h.heartbeat request)
  rcases onResponse_cases d k request final with
    ⟨unknown, -⟩ | ⟨h₀, found', ⟨unheard, -⟩ | ⟨alive, same⟩ | same⟩
  · rw [found] at unknown
    contradiction
  · obtain rfl : h = h₀ := Option.some.inj (found.symm.trans found')
    rcases unheard with removed | ⟨final, other⟩
    · contradiction
    · rw [heard final] at other
      contradiction
  · obtain rfl : h = h₀ := Option.some.inj (found.symm.trans found')
    rw [same, standing_own alike between]
    exact ⟨_, rfl, state.trans alive, rfl, .inr ⟨alive, reporters⟩⟩
  · obtain rfl : h = h₀ := Option.some.inj (found.symm.trans found')
    have between : ((d.settleHeartbeat k h (!final && awaits h.heartbeat request)).disarm
      (h.finalCheck.toList.map (·.timer))).health.get? k = some h' := between
    rw [same, checkHealed_spares.standing, standing_own alike between]
    exact ⟨_, rfl, rfl, rfl, .inl rfl⟩

/-- Whoever is pardoned is suspected anew. -/
theorem resuspectAll_own {members : List Member} (among : m.isIn members = true)
    (known : d.standing m = some s) :
    (members.foldl resuspect d).standing m = some ⟨.suspected, none, 0, []⟩ := by
  induction members generalizing d s with
  | nil => contradiction
  | cons x rest ih =>
    have follows : (d.resuspect x).standing m =
        if m.same x then some ⟨.suspected, none, 0, []⟩ else some s := by
      obtain ⟨h, found, rfl⟩ := known_of_standing (Member.same_refl m) known
      unfold standing
      rw [get?_resuspect, found]
      split <;> rfl
    rw [List.foldl_cons]
    cases later : m.isIn rest with
    | true =>
      split at follows
      · exact ih later follows
      · exact ih later follows
    | false =>
      have isIn : m.isIn (x :: rest) = (m.same x || m.isIn rest) := rfl
      rw [isIn, later, Bool.or_false] at among
      rw [if_pos among] at follows
      exact (resuspectAll_spares later).standing.trans follows

theorem markFailed_own (alike : m.same k = true) {h : Health} (found : d.health.get? k = some h) :
    ∃ s', (d.markFailed k h).standing m = some s' ∧ s'.state = .removed :=
  ⟨_, standing_own (d := d.disarm (h.finalCheck.toList.map (·.timer))) alike found _, rfl⟩

/-! ### Views, rounds and the end -/

/-- A new view leaves a member as it stands, or out, or takes in one that was not followed. -/
theorem standing_install (ordered : d.health.Ordered) (view : View) (m : Member) :
    (d.install view).standing m = none ∨
      d.standing m = none ∧ (d.install view).standing m = some .fresh ∨
      (d.install view).standing m = d.standing m := by
  by_cases older : view.id < d.view.id
  · rw [install_older older]
    exact .inr (.inr rfl)
  · cases after : (d.install view).health.get? m with
    | none =>
      left
      unfold standing
      rw [after]
      rfl
    | some h =>
      right
      obtain ⟨present, kept | ⟨-, rfl⟩⟩ := get?_install older after
      · right
        unfold standing
        rw [after, kept]
      · cases before : d.health.get? m with
        | none =>
          left
          unfold standing
          rw [before, after]
          exact ⟨rfl, rfl⟩
        | some old =>
          right
          rw [get?_install_of_some ordered older present before] at after
          unfold standing
          rw [get?_install_of_some ordered older present before, before]

theorem standing_stop (d : Detector) (m : Member) :
    d.stop.standing m = (d.standing m).map fun s => { s with owes := none } := by
  have answer : d.stop.health.get? m = (d.health.get? m).map Health.withoutRequests :=
    Table.get?_map d.health Health.withoutRequests m
  unfold standing
  rw [answer, Option.map_map, Option.map_map]
  rfl

/-- In a round each of some different members is sent one heartbeat. -/
theorem beatAll_own {members : List Member} (apart : members.Pairwise fun a b => a.same b = false)
    (among : m.isIn members = true) (known : d.standing m = some s) :
    ∃ request, (d.beatAll members).1.standing m = some { s with owes := some request } ∧
      beats m (d.beatAll members).2 = [request] ∧ checks m (d.beatAll members).2 = [] := by
  induction members generalizing d with
  | nil => contradiction
  | cons x rest ih =>
    obtain ⟨others, apart⟩ := List.pairwise_cons.mp apart
    cases first : m.same x with
    | true =>
      obtain ⟨h, found, rfl⟩ := known_of_standing first known
      have asked : (d.beat x).1.standing m = some { h.standing with owes := some d.nextRequest } :=
        standing_own (d := (d.request.1.arm d.settings.memberTimeout
          (.heartbeatTimeout x d.nextRequest)).1) first found _
      have spared : Spares (d.beat x).1 m ((d.beat x).1.beatAll rest) :=
        beatAll_spares fun y member => (Member.same_left first y).trans (others y member)
      have named : x.same m = true := by rw [Member.same_comm, first]
      have sent : beats m [(d.beat x).2] = [d.nextRequest] := by simp [beats, beat, request, named]
      have order : (d.beatAll (x :: rest)).2 = [(d.beat x).2] ++ ((d.beat x).1.beatAll rest).2 := rfl
      refine ⟨d.nextRequest, spared.standing.trans asked, ?_, ?_⟩
      · rw [order, beats_append, sent, spared.unasked, List.append_nil]
      · rw [order, checks_append, spared.unchecked]
        rfl
    | false =>
      have spared := beat_spares (d := d) first
      have later : m.isIn rest = true := by
        have isIn : m.isIn (x :: rest) = (m.same x || m.isIn rest) := rfl
        rw [isIn, first, Bool.false_or] at among
        exact among
      obtain ⟨request, standing, unanswered, unchecked⟩ := ih apart later (spared.standing.trans known)
      have order : (d.beatAll (x :: rest)).2 = [(d.beat x).2] ++ ((d.beat x).1.beatAll rest).2 := rfl
      refine ⟨request, standing, ?_, ?_⟩
      · rw [order, beats_append, spared.unasked, unanswered, List.nil_append]
      · rw [order, checks_append, spared.unchecked, unchecked, List.nil_append]

/-- Whom a round asks. -/
theorem isIn_addressees_iff (ordered : d.health.Ordered) (m : Member) :
    m.isIn d.addressees = true ↔
      ∃ s, d.standing m = some s ∧ s.Calm ∧ s.owes = none := by
  have wants : ∀ h : Health, wantsHeartbeat h = true ↔ h.standing.Calm ∧ h.standing.owes = none := by
    intro h
    cases beats : h.heartbeat <;> simp [wantsHeartbeat, Standing.Calm, Health.standing, beats]
  constructor
  · intro among
    obtain ⟨key, member, alike⟩ := (Member.isIn_iff m _).mp among
    obtain ⟨h, entry, willing⟩ := (mem_addressees d key).mp member
    have found := Table.get?_of_mem ordered entry
    exact ⟨h.standing, standing_of_known alike found, (wants h).mp willing⟩
  · rintro ⟨s, known, willing⟩
    obtain ⟨h, found, rfl⟩ := known_of_standing (Member.same_refl m) known
    obtain ⟨⟨key, h'⟩, first, rfl⟩ := Option.map_eq_some_iff.mp found
    have named : key.same m = true := by simpa using List.find?_some first
    refine (Member.isIn_iff m _).mpr ⟨key, ?_, ?_⟩
    · exact (mem_addressees d key).mpr ⟨h', List.mem_of_find?_eq_some first, (wants h').mpr willing⟩
    · rw [Member.same_comm]
      exact named

theorem onTick_own (ordered : d.health.Ordered) (known : d.standing m = some s) (calm : s.Calm)
    (idle : s.owes = none) : ∃ request, d.onTick.1.standing m = some { s with owes := some request } ∧
      beats m d.onTick.2 = [request] ∧ checks m d.onTick.2 = [] := by
  obtain ⟨request, standing, asked, unchecked⟩ :=
    beatAll_own (addressees_apart ordered)
      ((isIn_addressees_iff ordered m).mpr ⟨s, known, calm, idle⟩) known
  exact ⟨request, (scheduleTick_spares _).standing.trans standing, asked, unchecked⟩

theorem onTick_spares (ordered : d.health.Ordered)
    (unwilling : ∀ s, d.standing m = some s → s.Calm → s.owes ≠ none) : Spares d m d.onTick := by
  have apart : m.isIn d.addressees = false := by
    refine Bool.eq_false_iff.mpr fun among => ?_
    obtain ⟨s, known, calm, idle⟩ := (isIn_addressees_iff ordered m).mp among
    exact unwilling s known calm idle
  have spared : Spares d m (d.beatAll d.addressees) := by
    refine beatAll_spares fun x member => Bool.eq_false_iff.mpr fun alike => ?_
    rw [(Member.isIn_iff m _).mpr ⟨x, member, alike⟩] at apart
    contradiction
  exact ⟨(scheduleTick_spares _).standing.trans spared.standing, spared.unasked, spared.unchecked⟩

end

end Cohort.Detector
