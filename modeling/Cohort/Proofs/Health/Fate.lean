import Cohort.Proofs.Health.Standing

/-! The fate of one member in one move of a detector: it stays as it stands, something is weighed against
it, or it starts afresh. -/

namespace Cohort.Detector

/-! ### What a move means to a member -/

/-- What a move brings up against a member: an outstanding heartbeat that timed out, or a report. -/
def evidence (d : Detector) (m : Member) : Move → Option Evidence
  | .handle (.heartbeatTimeout target request) =>
    if target.same m && (d.standing m).bind (·.owes) == some request then some (.missed request) else none
  | .handle (.suspectReceived reporter suspects) =>
    if suspects.any (·.suspect.same m) then some (.reported reporter) else none
  | _ => none

/-- Whether a move is a request to remove a member. -/
def Move.asksRemoval (m : Member) : Move → Bool
  | .handle (.removeRequested _ target _) => target.same m
  | _ => false

/-- A move is an answer of a member that counts: to any heartbeat, or to the final check that it is
under, unless it has failed one. -/
def Accepts (d : Detector) (m : Member) : Move → Prop
  | .handle (.heartbeatResponse source _) =>
    source.same m = true ∧ ∃ h, d.health.get? m = some h ∧ h.state ≠ .removed
  | .handle (.finalCheckResponse source request) =>
    source.same m = true ∧ ∃ h, d.health.get? m = some h ∧ h.state ≠ .removed ∧
      awaits h.finalCheck request = true
  | _ => False

/-- A move is a failed final check after which the detector takes too much for unreachable, and a member
is part of that. -/
def Pardons (d : Detector) (m : Member) : Move → Prop
  | .handle (.finalCheckTimeout target request) | .handle (.finalCheckFailed target request) =>
    ∃ h, d.health.get? target = some h ∧ h.state = .finalCheck ∧ awaits h.finalCheck request = true ∧
      ¬ (d.markFailed target h).Condemns ∧ m.isIn (d.markFailed target h).unreachable = true
  | _ => False

/-- A member is followed after a move and was not before. -/
def Enters (d : Detector) (m : Member) (x : Move) : Prop :=
  d.standing m = none ∧ (d.move x).1.standing m ≠ none

/-- What one move does to one member. -/
inductive Fate (d : Detector) (m : Member) (x : Move) : Prop where
  | absent (after : (d.move x).1.standing m = none) (unchecked : checks m (d.move x).2 = [])
      (unweighed : ∀ s, d.standing m = some s → d.evidence m x = none ∧ x.asksRemoval m = false)
  | enters (before : d.standing m = none) (after : (d.move x).1.standing m = some .fresh)
      (unchecked : checks m (d.move x).2 = [])
  | spared (s : Standing) (before : d.standing m = some s) (after : (d.move x).1.standing m = some s)
      (unasked : beats m (d.move x).2 = []) (unchecked : checks m (d.move x).2 = [])
      (unweighed : s.Calm → d.evidence m x = none ∧ x.asksRemoval m = false)
      (unheard : ¬ d.Accepts m x) (unpardoned : ¬ d.Pardons m x)
  | asked (s : Standing) (request : UInt64) (before : d.standing m = some s) (calm : s.Calm)
      (idle : s.owes = none) (round : x = .handle .heartbeatTick)
      (after : (d.move x).1.standing m = some { s with owes := some request })
      (asked : beats m (d.move x).2 = [request]) (unchecked : checks m (d.move x).2 = [])
  | stops (s : Standing) (before : d.standing m = some s) (stop : x = .stop)
      (after : (d.move x).1.standing m = some { s with owes := none })
  | answers (s s' : Standing) (before : d.standing m = some s) (accepts : d.Accepts m x)
      (after : (d.move x).1.standing m = some s') (alive : s'.state = .alive) (missed : s'.missed = 0)
      (reporters : s'.reporters = [] ∨ s.state = .alive ∧ s'.reporters = s.reporters)
      (unchecked : checks m (d.move x).2 = [])
  | pardoned (s : Standing) (before : d.standing m = some s) (pardons : d.Pardons m x)
      (after : (d.move x).1.standing m = some ⟨.suspected, none, 0, []⟩)
      (unchecked : checks m (d.move x).2 = [])
  | weighs (s : Standing) (e : Evidence) (before : d.standing m = some s) (calm : s.Calm)
      (found : d.evidence m x = some e)
      (weighed : Weighed d.settings.suspectThreshold m (s.weigh e) (d.move x))
  | suspected (s s' : Standing) (before : d.standing m = some s) (calm : s.Calm)
      (asks : x.asksRemoval m = true) (after : (d.move x).1.standing m = some s')
      (state : s'.state = .finalCheck) (checked : ∃ request, checks m (d.move x).2 = [request])
  | outside (s s' : Standing) (before : d.standing m = some s) (beyond : ¬ s.Calm)
      (after : (d.move x).1.standing m = some s') (still : ¬ s'.Calm)
      (unchecked : checks m (d.move x).2 = [])

section
variable {d : Detector} {m : Member} {x : Move}

/-- Work that spares a member which is not followed. -/
theorem Fate.of_unknown (unknown : d.standing m = none) (spares : Spares d m (d.move x)) : Fate d m x := by
  refine .absent (spares.standing.trans unknown) spares.unchecked ?_
  intro s known
  rw [unknown] at known
  contradiction

/-- Work that spares a member, in a move that means nothing to it. -/
theorem Fate.of_spares (spares : Spares d m (d.move x)) (unweighed : d.evidence m x = none)
    (unasked : x.asksRemoval m = false) (unheard : ¬ d.Accepts m x) (unpardoned : ¬ d.Pardons m x) :
    Fate d m x := by
  cases before : d.standing m with
  | none => exact .of_unknown before spares
  | some s =>
    exact .spared s before (spares.standing.trans before) spares.unasked spares.unchecked
      (fun _ => ⟨unweighed, unasked⟩) unheard unpardoned

theorem unknown_of_standing (unknown : d.standing m = none) {k : Member} (alike : m.same k = true) :
    d.health.get? k = none := by
  rw [← Table.get?_congr alike]
  exact Option.map_eq_none_iff.mp unknown

theorem fate_timeout (target : Member) (request : UInt64) :
    Fate d m (.handle (.heartbeatTimeout target request)) := by
  cases alike : m.same target with
  | false =>
    have other : target.same m = false := by rw [Member.same_comm, alike]
    exact .of_spares (onHeartbeatTimeout_spares alike request) (by simp [evidence, other]) rfl id id
  | true =>
    have own : target.same m = true := by rw [Member.same_comm, alike]
    cases known : d.standing m with
    | none =>
      have stale : ∀ h, d.health.get? target = some h → awaits h.heartbeat request = false := by
        intro h found
        rw [unknown_of_standing known alike] at found
        contradiction
      apply Fate.of_unknown known
      rw [move, handle, onHeartbeatTimeout_stale stale]
      exact .refl d m
    | some s =>
      by_cases owes : s.owes = some request
      · by_cases calm : s.Calm
        · exact .weighs s (.missed request) known calm (by simp [evidence, own, known, owes])
            (onHeartbeatTimeout_weighed alike known calm owes)
        · obtain ⟨s', after, still, unchecked⟩ := onHeartbeatTimeout_outside alike known calm request
          exact .outside s s' known calm after still unchecked
      · obtain ⟨h, found, rfl⟩ := known_of_standing alike known
        have stale : ∀ h, d.health.get? target = some h → awaits h.heartbeat request = false := by
          intro h' found'
          obtain rfl : h = h' := Option.some.inj (found.symm.trans found')
          refine Bool.eq_false_iff.mpr fun waits => owes ?_
          exact Option.map_eq_some_iff.mpr ((awaits_iff _ _).mp waits)
        refine .of_spares ?_ (by simp [evidence, known, owes]) rfl id id
        rw [move, handle, onHeartbeatTimeout_stale stale]
        exact .refl d m

theorem fate_report (follows : d.Follows) (reporter : Member) (suspects : List Suspicion) :
    Fate d m (.handle (.suspectReceived reporter suspects)) := by
  cases named : suspects.any (·.suspect.same m) with
  | false => exact .of_spares (onSuspects_spares named) (by simp [evidence, named]) rfl id id
  | true =>
    by_cases calm : ∃ s, d.standing m = some s ∧ s.Calm
    · obtain ⟨s, known, calm⟩ := calm
      exact .weighs s (.reported reporter) known calm (by simp [evidence, named])
        (onSuspects_weighed follows named known calm)
    · have spared : Spares d m (d.onSuspects reporter suspects) :=
        onSuspects_outside fun s known calm' => calm ⟨s, known, calm'⟩
      cases known : d.standing m with
      | none => exact .of_unknown known spared
      | some s =>
        have beyond : ¬ s.Calm := fun calm' => calm ⟨s, known, calm'⟩
        exact .outside s s known beyond (spared.standing.trans known) beyond spared.unchecked

/-- A response that the detector acts on, if `Accepts` says so of a move that is nothing else. -/
theorem fate_response {source : Member} {request : UInt64} (final : Bool)
    (moved : d.move x = (d.onResponse source request final, [])) (unweighed : d.evidence m x = none)
    (unasked : x.asksRemoval m = false) (unpardoned : ¬ d.Pardons m x)
    (accepts : d.Accepts m x ↔ source.same m = true ∧ ∃ h, d.health.get? m = some h ∧ h.state ≠ .removed ∧
      (final = true → awaits h.finalCheck request = true)) : Fate d m x := by
  have spared : ¬ d.Accepts m x → Spares d m (d.move x) → Fate d m x := fun unheard spares =>
    .of_spares spares unweighed unasked unheard unpardoned
  cases alike : m.same source with
  | false =>
    refine spared ?_ (moved ▸ onResponse_spares alike request final)
    rw [accepts, Member.same_comm, alike]
    simp
  | true =>
    have same : ∀ h, d.health.get? m = some h → d.health.get? source = some h := fun h known =>
      (Table.get?_congr alike).symm.trans known
    cases known : d.health.get? m with
    | none =>
      have unknown : d.health.get? source = none := (Table.get?_congr alike).symm.trans known
      refine spared ?_ ?_
      · rw [accepts, known]
        simp
      · rw [moved, onResponse, unknown]
        exact .refl d m
    | some h =>
      by_cases heard : h.state ≠ .removed ∧ (final = true → awaits h.finalCheck request = true)
      · obtain ⟨s', after, alive, missed, reporters⟩ := onResponse_own alike (same h known) heard.1 heard.2
        have named : source.same m = true := by rw [Member.same_comm, alike]
        refine .answers h.standing s' (standing_of_known alike (same h known))
          (accepts.mpr ⟨named, h, known, heard⟩) ?_ alive missed reporters ?_
        · rw [moved]
          exact after
        · rw [moved]
          rfl
      · refine spared ?_ ?_
        · rintro accepted
          obtain ⟨-, h', known', heard'⟩ := accepts.mp accepted
          obtain rfl : h = h' := Option.some.inj (known.symm.trans known')
          exact heard heard'
        · have unheard : h.state = .removed ∨ final = true ∧ awaits h.finalCheck request = false := by
            by_contra otherwise
            obtain ⟨allowed, waits⟩ := not_or.mp otherwise
            exact heard ⟨allowed, fun is => by simpa [is] using waits⟩
          rw [moved, onResponse_unheard (same h known) unheard]
          exact .refl d m

theorem fate_request (follows : d.Follows) (requester target : Member) (reason : String) :
    Fate d m (.handle (.removeRequested requester target reason)) := by
  cases alike : m.same target with
  | false =>
    have other : target.same m = false := by rw [Member.same_comm, alike]
    exact .of_spares (onRemoveRequested_spares alike requester) rfl other id id
  | true =>
    have own : target.same m = true := by rw [Member.same_comm, alike]
    cases known : d.standing m with
    | none =>
      have spared : Spares d m (d.onRemoveRequested requester target) := by
        unfold onRemoveRequested
        rw [unknown_of_standing known alike]
        split <;> exact .refl d m
      exact .of_unknown known spared
    | some s =>
      by_cases calm : s.Calm
      · obtain ⟨s', after, state, checked⟩ := onRemoveRequested_own follows alike known calm requester
        exact .suspected s s' known calm own after state checked
      · obtain ⟨s', after, still, unchecked⟩ := onRemoveRequested_outside alike known calm requester
        exact .outside s s' known calm after still unchecked

/-- Nobody is asked anything when removals are requested. -/
theorem silent_requests {failed : List Member} {actions : List Action}
    (requests : ∀ a ∈ actions, ∃ coordinator, ∃ k ∈ failed,
      a = .requestRemoval coordinator k "failed final check") :
    beats m actions = [] ∧ checks m actions = [] := by
  constructor
  · refine List.filterMap_eq_nil_iff.mpr fun a member => ?_
    obtain ⟨coordinator, k, -, rfl⟩ := requests a member
    rfl
  · refine List.filterMap_eq_nil_iff.mpr fun a member => ?_
    obtain ⟨coordinator, k, -, rfl⟩ := requests a member
    rfl

theorem onFinalCheckFailed_stale {target : Member} {request : UInt64}
    (stale : ¬ ∃ h, d.health.get? target = some h ∧ h.state = .finalCheck ∧
      awaits h.finalCheck request = true) : d.onFinalCheckFailed target request = (d, []) := by
  rcases onFinalCheckFailed_cases d target request with same | ⟨h, o, known, state, check, asked, -⟩
  · exact same
  · exact absurd ⟨h, known, state, (awaits_iff _ _).mpr ⟨o, check, asked⟩⟩ stale

theorem onFinalCheckFailed_failing {target : Member} {request : UInt64} {h : Health}
    (known : d.health.get? target = some h) (state : h.state = .finalCheck)
    (waits : awaits h.finalCheck request = true) :
    d.onFinalCheckFailed target request = (d.markFailed target h).conclude := by
  unfold onFinalCheckFailed
  simp only [known, state, waits, BEq.rfl, Bool.and_self, if_true]
  rfl

theorem isSome_standing (d : Detector) (m : Member) :
    (d.standing m).isSome = (d.health.get? m).isSome := Option.isSome_map

theorem isSome_markFailed (d : Detector) (m k : Member) (h : Health) :
    ((d.markFailed k h).standing m).isSome = (d.standing m).isSome := by
  cases alike : m.same k with
  | false => rw [(markFailed_spares alike h).standing]
  | true =>
    unfold markFailed
    rw [standing_update, if_pos alike, isSome_standing]
    exact Option.isSome_map

theorem isSome_resuspectAll (d : Detector) (m : Member) (members : List Member) :
    ((members.foldl resuspect d).standing m).isSome = (d.standing m).isSome := by
  rw [isSome_standing, isSome_standing]
  exact (resuspectAll_quiet d members).tracked m

/-- A move is the failure of a final check that is waited for, and means nothing else to a member. -/
structure Failing (d : Detector) (m : Member) (x : Move) (target : Member) (h : Health) : Prop where
  known : d.health.get? target = some h
  state : h.state = .finalCheck
  unweighed : d.evidence m x = none
  unasked : x.asksRemoval m = false
  unheard : ¬ d.Accepts m x
  moved : d.move x = (d.markFailed target h).conclude
  pardons : d.Pardons m x ↔
    ¬ (d.markFailed target h).Condemns ∧ m.isIn (d.markFailed target h).unreachable = true

namespace Failing

variable {target : Member} {h : Health}

/-- Whatever follows the failure: a member that stands afterwards as it did before is dealt with. -/
theorem kept (failing : d.Failing m x target h)
    (standing : (d.move x).1.standing m = (d.markFailed target h).standing m)
    (unasked : beats m (d.move x).2 = []) (unchecked : checks m (d.move x).2 = [])
    (unpardoned : ¬ d.Pardons m x) : Fate d m x := by
  cases alike : m.same target with
  | true =>
    obtain ⟨s', marked, removed⟩ := markFailed_own alike failing.known
    have before := standing_of_known alike failing.known
    refine .outside h.standing s' before ?_ (standing.trans marked) ?_ unchecked
    · simp [Standing.Calm, Health.standing, failing.state]
    · simp [Standing.Calm, removed]
  | false =>
    exact .of_spares ⟨standing.trans (markFailed_spares alike h).standing, unasked, unchecked⟩
      failing.unweighed failing.unasked failing.unheard unpardoned

/-- Too much is unreachable: those who are start afresh. -/
theorem declared (failing : d.Failing m x target h) {news : List Action}
    (condemned : ¬ (d.markFailed target h).Condemns)
    (moved : d.move x = ((d.markFailed target h).declare, news)) (unasked : beats m news = [])
    (unchecked : checks m news = []) : Fate d m x := by
  have silent : checks m (d.move x).2 = [] := by
    rw [moved]
    exact unchecked
  have standing : (d.move x).1.standing m =
      ((d.markFailed target h).unreachable.foldl resuspect (d.markFailed target h)).standing m := by
    rw [moved]
    rfl
  cases among : m.isIn (d.markFailed target h).unreachable with
  | true =>
    have tracked : ((d.move x).1.standing m).isSome = (d.standing m).isSome := by
      rw [standing, isSome_resuspectAll, isSome_markFailed]
    cases before : d.standing m with
    | none =>
      rw [before, Option.isSome_none, Option.isSome_eq_false_iff, Option.isNone_iff_eq_none] at tracked
      exact .absent tracked silent fun _ _ => ⟨failing.unweighed, failing.unasked⟩
    | some s =>
      have marked := isSome_markFailed d m target h
      rw [before] at marked
      obtain ⟨s', known⟩ := Option.isSome_iff_exists.mp marked
      exact .pardoned s before (failing.pardons.mpr ⟨condemned, among⟩)
        (standing.trans (resuspectAll_own among known)) silent
  | false =>
    refine failing.kept (standing.trans (resuspectAll_spares among).standing) ?_ silent fun pardoned => ?_
    · rw [moved]
      exact unasked
    · rw [(failing.pardons.mp pardoned).2] at among
      contradiction

/-- Those who failed are removed, by this member or by another one. -/
theorem removes (failing : d.Failing m x target h) (ordered : d.health.Ordered) {failed : List Member}
    (condemns : (d.markFailed target h).Condemns)
    (moved : d.move x = (d.markFailed target h).undivided.removeFailed failed) : Fate d m x := by
  have unpardoned : ¬ d.Pardons m x := fun pardoned => (failing.pardons.mp pardoned).1 condemns
  have undivided : (d.markFailed target h).undivided.standing m = (d.markFailed target h).standing m := rfl
  rcases removeFailed_cases (d.markFailed target h).undivided failed with
    ⟨unchanged, requests⟩ | ⟨coordinator, -, -, installed⟩
  · rw [← moved] at unchanged requests
    obtain ⟨unasked, unchecked⟩ := silent_requests requests
    exact failing.kept (unchanged ▸ undivided) unasked unchecked unpardoned
  · rw [installed] at moved
    have silent : beats m (d.move x).2 = [] ∧ checks m (d.move x).2 = [] := by
      rw [moved]
      exact ⟨rfl, rfl⟩
    have keys : (d.markFailed target h).undivided.health.Ordered := ordered_markFailed ordered target h
    rcases standing_install keys ((d.markFailed target h).undivided.view.successor
      (d.markFailed target h).undivided.self [] [] failed) m with gone | ⟨before, fresh⟩ | same
    · exact .absent (moved ▸ gone) silent.2 fun _ _ => ⟨failing.unweighed, failing.unasked⟩
    · have unknown := isSome_markFailed d m target h
      rw [← undivided, before, Option.isSome_none, eq_comm, Option.isSome_eq_false_iff,
        Option.isNone_iff_eq_none] at unknown
      exact .enters unknown (moved ▸ fresh) silent.2
    · exact failing.kept (moved ▸ same.trans undivided) silent.1 silent.2 unpardoned

theorem fate (failing : d.Failing m x target h) (follows : d.Follows) (ordered : d.health.Ordered) :
    Fate d m x := by
  have moved := failing.moved
  rcases conclude_verdict (d.markFailed target h) with
    ⟨nobody, -⟩ | ⟨detects, tooMuch, verdict⟩ | ⟨bearable, -, verdict⟩
  · exact absurd nobody (some_removed_of_markFailed follows failing.known)
  · have condemned : ¬ (d.markFailed target h).Condemns := fun condemns => by
      rw [condemns detects] at tooMuch
      contradiction
    refine failing.declared condemned (moved.trans verdict) ?_ ?_
    · split <;> rfl
    · split <;> rfl
  · exact failing.removes ordered bearable (moved.trans verdict)

end Failing

/-- A move that is the failure of a final check, if `Pardons` says so of it. -/
theorem fate_failure {target : Member} {request : UInt64} (follows : d.Follows) (ordered : d.health.Ordered)
    (moved : d.move x = d.onFinalCheckFailed target request) (unweighed : d.evidence m x = none)
    (unasked : x.asksRemoval m = false) (unheard : ¬ d.Accepts m x)
    (pardons : d.Pardons m x ↔ ∃ h, d.health.get? target = some h ∧ h.state = .finalCheck ∧
      awaits h.finalCheck request = true ∧ ¬ (d.markFailed target h).Condemns ∧
        m.isIn (d.markFailed target h).unreachable = true) : Fate d m x := by
  by_cases waited : ∃ h, d.health.get? target = some h ∧ h.state = .finalCheck ∧
      awaits h.finalCheck request = true
  · obtain ⟨h, known, state, waits⟩ := waited
    have failing : d.Failing m x target h := by
      refine ⟨known, state, unweighed, unasked, unheard, ?_, ?_⟩
      · rw [moved, onFinalCheckFailed_failing known state waits]
      · rw [pardons]
        constructor
        · rintro ⟨h', known', -, -, both⟩
          obtain rfl : h = h' := Option.some.inj (known.symm.trans known')
          exact both
        · exact fun both => ⟨h, known, state, waits, both⟩
    exact failing.fate follows ordered
  · refine .of_spares ?_ unweighed unasked unheard ?_
    · rw [moved, onFinalCheckFailed_stale waited]
      exact .refl d m
    · rw [pardons]
      rintro ⟨h, known, state, waits, -⟩
      exact waited ⟨h, known, state, waits⟩

/-- Every move has one of these fates for every member. -/
theorem fate (follows : d.Follows) (ordered : d.health.Ordered) (m : Member) (x : Move) : Fate d m x := by
  cases x with
  | timers schedule => exact .of_spares (.of_health rfl) rfl rfl id id
  | start => exact .of_spares (scheduleTick_spares _) rfl rfl id id
  | stop =>
    have after := standing_stop d m
    cases known : d.standing m with
    | none =>
      rw [known] at after
      exact .absent after rfl fun _ _ => ⟨rfl, rfl⟩
    | some s =>
      rw [known] at after
      exact .stops s known rfl after
  | handle event =>
    cases event with
    | heartbeatTick =>
      by_cases asks : ∃ s, d.standing m = some s ∧ s.Calm ∧ s.owes = none
      · obtain ⟨s, known, calm, idle⟩ := asks
        obtain ⟨request, after, asked, unchecked⟩ := onTick_own ordered known calm idle
        exact .asked s request known calm idle rfl after asked unchecked
      · exact .of_spares (onTick_spares ordered fun s known calm idle => asks ⟨s, known, calm, idle⟩)
          rfl rfl id id
    | heartbeatTimeout target request => exact fate_timeout target request
    | heartbeatResponse source request =>
      exact fate_response false rfl rfl rfl id (by simp [Accepts])
    | suspectReceived reporter suspects => exact fate_report follows reporter suspects
    | finalCheckTimeout target request => exact fate_failure follows ordered rfl rfl rfl id .rfl
    | finalCheckResponse source request =>
      exact fate_response true rfl rfl rfl id (by simp [Accepts])
    | finalCheckFailed target request => exact fate_failure follows ordered rfl rfl rfl id .rfl
    | removeRequested requester target reason => exact fate_request follows requester target reason
    | viewInstalled view =>
      rcases standing_install ordered view m with gone | ⟨before, fresh⟩ | same
      · exact .absent gone rfl fun _ _ => ⟨rfl, rfl⟩
      · exact .enters before fresh rfl
      · exact .of_spares ⟨same, rfl, rfl⟩ rfl rfl id id

end

end Cohort.Detector
