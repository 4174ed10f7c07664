import Cohort.Proofs.Health.Standing

/-! Whose word counts against a member. A detector takes a report, or a request to remove somebody, from
anybody at all, and it keeps a reporter for as long as it keeps the reported member. So only the members
of the view speak against each other as long as nobody else does, and nobody leaves with a report of his
still standing; these are the only ways to a word that should not count. -/

namespace Cohort.Detector

/-- Those who reported a member during its suspicion. -/
def reporters (d : Detector) (m : Member) : List Member :=
  ((d.health.get? m).map (·.reporters)).getD []

/-- Somebody may corroborate the suspicion of a member: another one in the view, and not the detector's
own. -/
def Peer (d : Detector) (m k : Member) : Prop :=
  d.view.contains k = true ∧ k.same m = false ∧ k.same d.self = false

/-- Only those corroborate a suspicion who may. -/
def Peered (d : Detector) : Prop := ∀ m, ∀ k ∈ d.reporters m, d.Peer m k

/-- A report of a member is taken. -/
def Believes (d : Detector) (m : Member) : Prop :=
  ∃ h, d.health.get? m = some h ∧ (h.state = .alive ∨ h.state = .suspected)

/-- A request to remove a member is taken, be it that the member is under its final check already. -/
def Heeds (d : Detector) (m : Member) : Prop :=
  ∃ h, d.health.get? m = some h ∧ h.state ≠ .removed

/-- A move brings the word of somebody who may not corroborate, and the detector takes it. -/
def Admits (d : Detector) : Move → Prop
  | .handle (.suspectReceived reporter suspects) =>
    ∃ s ∈ suspects, d.Believes s.suspect ∧ ¬ d.Peer s.suspect reporter
  | .handle (.removeRequested requester m _) => d.Heeds m ∧ ¬ d.Peer m requester
  | _ => False

/-- A view still has a member, and no longer one of those who reported it. -/
def Outlives (d : Detector) (view : View) : Prop :=
  ∃ m, view.contains m = true ∧ ∃ k ∈ d.reporters m, view.contains k = false

section
variable {d e f : Detector} {m k : Member}

/-! ### Reporters -/

theorem reporters_of_known {h : Health} (known : d.health.get? m = some h) :
    d.reporters m = h.reporters := by
  rw [reporters, known]
  rfl

theorem reporters_of_unknown (unknown : d.health.get? m = none) : d.reporters m = [] := by
  rw [reporters, unknown]
  rfl

theorem reporters_congr (alike : m.same k = true) : d.reporters m = d.reporters k := by
  rw [reporters, Table.get?_congr alike, reporters]

theorem reporters_update (d : Detector) (m k : Member) (f : Health → Health) :
    (d.update m f).reporters k =
      if k.same m then ((d.health.get? k).map fun h => (f h).reporters).getD [] else d.reporters k := by
  unfold reporters
  rw [get?_mark]
  split
  · rw [Option.map_map]
    rfl
  · rfl

theorem reporters_mark {f : Health → Health} (keeps : ∀ h, (f h).reporters = h.reporters) :
    (d.update m f).reporters k = d.reporters k := by
  rw [reporters_update]
  simp only [keeps, reporters, ite_self]

theorem reporters_beginFinalCheck : (d.beginFinalCheck m).1.reporters k = d.reporters k := by
  unfold reporters
  rw [get?_beginFinalCheck]
  split
  · rw [Option.map_map]
    rfl
  · rfl

theorem reporters_checkThreshold : (d.checkThreshold m).1.reporters k = d.reporters k := by
  unfold checkThreshold
  split
  · rfl
  · split
    · exact reporters_beginFinalCheck
    · rfl

theorem reporters_markFailed (h : Health) : (d.markFailed m h).reporters k = d.reporters k := by
  unfold markFailed
  exact reporters_mark fun _ => rfl

/-- After a report of somebody who is followed, the reporter is among the others. -/
theorem reporters_reported {h : Health} (known : d.health.get? m = some h) (reporter : Member)
    {f : Health → Health} (adds : ∀ h, (f h).reporters = (h.report reporter).reporters) :
    (d.update m f).reporters k =
      if k.same m then addReporter (d.reporters m) reporter else d.reporters k := by
  rw [reporters_update]
  cases alike : k.same m with
  | false => rfl
  | true =>
    rw [if_pos rfl, if_pos rfl, Table.get?_congr alike, known, reporters_of_known known]
    exact (adds h).trans (reporters_report h reporter)

theorem reporters_install (ordered : d.health.Ordered) {view : View} (newer : ¬ view.id < d.view.id) :
    (d.install view).reporters k = if view.contains k then d.reporters k else [] := by
  cases known : (d.install view).health.get? k with
  | some h =>
    obtain ⟨present, kept | ⟨-, rfl⟩⟩ := get?_install newer known
    · rw [reporters_of_known known, if_pos present, reporters_of_known kept]
    · rw [reporters_of_known known, if_pos present]
      cases before : d.health.get? k with
      | none => rw [reporters_of_unknown before]
      | some old =>
        have same := get?_install_of_some ordered newer present before
        rw [known] at same
        cases same
        rw [reporters_of_known before]
  | none =>
    rw [reporters_of_unknown known]
    cases present : view.contains k with
    | false => rfl
    | true =>
      cases before : d.health.get? k with
      | none => rw [if_pos rfl, reporters_of_unknown before]
      | some old =>
        rw [get?_install_of_some ordered newer present before] at known
        contradiction

/-! ### Work that adds no reporter -/

/-- Nobody has a reporter that he had not before; he may have lost all of them. -/
def Forgets (d e : Detector) : Prop := ∀ k, e.reporters k = d.reporters k ∨ e.reporters k = []

namespace Forgets

theorem of_reporters (same : ∀ k, e.reporters k = d.reporters k) : Forgets d e := fun k => Or.inl (same k)

theorem of_health (same : e.health = d.health) : Forgets d e :=
  .of_reporters fun k => by rw [reporters, same, reporters]

theorem refl (d : Detector) : Forgets d d := .of_health rfl

theorem trans (first : Forgets d e) (second : Forgets e f) : Forgets d f := fun k =>
  (second k).elim (fun same => (first k).imp same.trans same.trans) Or.inr

theorem mark (d : Detector) (m : Member) (f : Health → Health)
    (keeps : ∀ h, (f h).reporters = h.reporters ∨ (f h).reporters = []) : Forgets d (d.update m f) := by
  intro k
  rw [reporters_update]
  cases alike : k.same m with
  | false => exact Or.inl rfl
  | true =>
    cases known : d.health.get? k with
    | none => exact Or.inr rfl
    | some h =>
      rw [reporters_of_known known]
      exact keeps h

end Forgets

end

section
variable (d : Detector) (m : Member)

theorem cancelRequests_forgets : Forgets d (d.cancelRequests m) := by
  unfold cancelRequests
  split
  · exact .refl d
  · exact .mark (d.disarm _) m Health.withoutRequests fun _ => Or.inl rfl

theorem beat_forgets : Forgets d (d.beat m).1 :=
  .mark d m (fun h => { h with heartbeat := some ⟨d.nextRequest, d.timers.nextId⟩ }) fun _ => Or.inl rfl

theorem beatAll_forgets (members : List Member) : Forgets d (d.beatAll members).1 := by
  induction members generalizing d with
  | nil => exact .refl d
  | cons m rest ih => exact (d.beat_forgets m).trans (ih _)

theorem onTick_forgets : Forgets d d.onTick.1 := d.beatAll_forgets _

theorem onHeartbeatTimeout_forgets (request : UInt64) : Forgets d (d.onHeartbeatTimeout m request).1 := by
  unfold onHeartbeatTimeout
  split
  · exact .refl d
  · split
    · exact .refl d
    · exact (Forgets.mark d m Health.miss fun _ => Or.inl rfl).trans
        (.of_reporters fun _ => reporters_checkThreshold)

theorem settleHeartbeat_forgets (h : Health) (answered : Bool) :
    Forgets d (d.settleHeartbeat m h answered) := by
  unfold settleHeartbeat
  split
  · exact .mark (d.disarm _) m (fun h => { h with heartbeat := none }) fun _ => Or.inl rfl
  · exact .refl d

theorem checkHealed_forgets : Forgets d d.checkHealed := by
  unfold checkHealed
  split <;> exact .of_health rfl

theorem onResponse_forgets (request : UInt64) (final : Bool) :
    Forgets d (d.onResponse m request final) := by
  rcases onResponse_cases d m request final with
    ⟨-, same⟩ | ⟨h, -, ⟨-, same⟩ | ⟨-, same⟩ | same⟩ <;> rw [same]
  · exact .refl d
  · exact .refl d
  · exact (d.settleHeartbeat_forgets m h _).trans (.mark _ m _ fun _ => Or.inl rfl)
  · exact ((d.settleHeartbeat_forgets m h _).trans (.mark _ m _ fun _ => Or.inr rfl)).trans
      (checkHealed_forgets _)

theorem resuspectAll_forgets (members : List Member) : Forgets d (members.foldl resuspect d) := by
  induction members generalizing d with
  | nil => exact .refl d
  | cons m rest ih =>
    exact ((d.cancelRequests_forgets m).trans (.mark _ m _ fun _ => Or.inr rfl)).trans (ih (d.resuspect m))

theorem stop_forgets : Forgets d d.stop := by
  refine .of_reporters fun k => ?_
  have after : d.stop.health.get? k = (d.health.get? k).map Health.withoutRequests :=
    Table.get?_map d.health Health.withoutRequests k
  rw [reporters, after, Option.map_map]
  rfl

end

/-! ### Who corroborates -/

section
variable {d e : Detector} {m k : Member}

theorem Peer.congr (alike : m.same k = true) {x : Member} (peer : d.Peer m x) : d.Peer k x :=
  ⟨peer.1, (Member.same_right alike x).symm.trans peer.2.1, peer.2.2⟩

/-- Whoever is among the reporters may be among them. -/
theorem Peered.of_isIn (peered : d.Peered) {reporter : Member}
    (among : reporter.isIn (d.reporters m) = true) :
    d.Peer m reporter := by
  obtain ⟨x, member, alike⟩ := (Member.isIn_iff reporter _).mp among
  obtain ⟨present, other, foreign⟩ := peered m x member
  refine ⟨?_, ?_, ?_⟩
  · rw [View.contains_congr alike]
    exact present
  · rw [Member.same_left alike]
    exact other
  · rw [Member.same_left alike]
    exact foreign

theorem peered_of_forgets (peered : d.Peered) (forgets : Forgets d e) (self : e.self = d.self)
    (view : e.view = d.view) : e.Peered := by
  intro m x member
  unfold Peer
  rw [self, view]
  rcases forgets m with same | none
  · exact peered m x (same ▸ member)
  · rw [none] at member
    cases member

/-! ### Views -/

/-- In the view that a detector has, no reporter is missing. -/
theorem not_outlives (peered : d.Peered) : ¬ d.Outlives d.view := by
  rintro ⟨m, -, x, member, absent⟩
  rw [(peered m x member).1] at absent
  contradiction

theorem outlives_congr (same : ∀ k, e.reporters k = d.reporters k) (view : View) :
    e.Outlives view ↔ d.Outlives view := by
  simp only [Outlives, same]

/-- Work that adds no reporter and brings no view keeps to those who may corroborate. -/
theorem peered_quietly (peered : d.Peered) {result : Detector × List Action} (forgets : Forgets d result.1)
    (quiet : Quiet d result) : result.1.Peered ↔ ¬ d.Outlives result.1.view := by
  rw [quiet.view]
  exact iff_of_true (peered_of_forgets peered forgets quiet.self quiet.view) (not_outlives peered)

theorem peered_install_iff (ordered : d.health.Ordered) (peered : d.Peered) (view : View) :
    (d.install view).Peered ↔ ¬ d.Outlives (d.install view).view := by
  by_cases older : view.id < d.view.id
  · rw [install_older older]
    exact iff_of_true peered (not_outlives peered)
  · have stays : ∀ {m}, view.contains m = true → (d.install view).reporters m = d.reporters m :=
      fun present => (reporters_install ordered older).trans (if_pos present)
    rw [install_view older]
    constructor
    · rintro after ⟨m, present, x, member, absent⟩
      have here := (after m x ((stays present).symm ▸ member)).1
      rw [install_view older, absent] at here
      contradiction
    · intro kept m x member
      cases present : view.contains m with
      | false =>
        rw [reporters_install ordered older, present] at member
        cases member
      | true =>
        rw [stays present] at member
        obtain ⟨-, other, foreign⟩ := peered m x member
        refine ⟨?_, other, ?_⟩
        · rw [install_view older]
          by_contra absent
          exact kept ⟨m, present, x, member, Bool.not_eq_true _ ▸ absent⟩
        · rw [install_self]
          exact foreign

theorem peered_conclude_iff (ordered : d.health.Ordered) (peered : d.Peered) :
    d.conclude.1.Peered ↔ ¬ d.Outlives d.conclude.1.view := by
  rcases conclude_verdict d with ⟨-, same⟩ | ⟨-, -, same⟩ | ⟨-, -, same⟩ <;> rw [same]
  · exact iff_of_true peered (not_outlives peered)
  · have declared := resuspectAll_quiet d d.unreachable
    have forgets : Forgets d d.declare := (d.resuspectAll_forgets d.unreachable).trans (.of_health rfl)
    have view : d.declare.view = d.view := declared.view
    rw [view]
    exact iff_of_true (peered_of_forgets peered forgets declared.self view) (not_outlives peered)
  · have undivided : d.undivided.Peered := peered
    rcases removeFailed_cases d.undivided (d.membersIn [.removed]) with
      ⟨unchanged, -⟩ | ⟨_, -, -, installed⟩
    · rw [unchanged]
      exact iff_of_true undivided (not_outlives peered)
    · rw [installed]
      exact peered_install_iff (d := d.undivided) ordered undivided _

theorem peered_failure_iff (ordered : d.health.Ordered) (peered : d.Peered) (m : Member)
    (request : UInt64) :
    (d.onFinalCheckFailed m request).1.Peered ↔ ¬ d.Outlives (d.onFinalCheckFailed m request).1.view := by
  rcases onFinalCheckFailed_cases d m request with same | ⟨h, o, -, -, -, -, same⟩ <;> rw [same]
  · exact iff_of_true peered (not_outlives peered)
  · have kept : ∀ k, (d.markFailed m h).reporters k = d.reporters k := fun _ => reporters_markFailed h
    have marked : (d.markFailed m h).Peered :=
      peered_of_forgets peered (.of_reporters kept) rfl rfl
    rw [peered_conclude_iff (ordered_markFailed ordered m h) marked, outlives_congr kept]

/-! ### Reports -/

/-- The word of somebody who may corroborate changes nothing of it, and that of somebody who may not is
enough. -/
theorem peered_reported_iff (peered : d.Peered) (reporter : Member) (self : e.self = d.self)
    (view : e.view = d.view) (after : ∀ k, e.reporters k =
      if k.same m then addReporter (d.reporters m) reporter else d.reporters k) :
    e.Peered ↔ d.Peer m reporter := by
  have peers : ∀ k x, e.Peer k x ↔ d.Peer k x := fun k x => by rw [Peer, self, view, Peer]
  have added : reporter.isIn (e.reporters m) = true := by
    rw [after, if_pos (Member.same_refl m)]
    unfold addReporter
    split
    · assumption
    · exact Member.isIn_of_mem (List.mem_append_right _ (List.mem_singleton_self reporter))
  constructor
  · exact fun peered' => (peers m reporter).mp (peered'.of_isIn added)
  · intro peer k x member
    rw [peers]
    rw [after] at member
    cases alike : k.same m with
    | false =>
      rw [alike] at member
      exact peered k x member
    | true =>
      rw [alike, if_pos rfl] at member
      have back : m.same k = true := by rw [Member.same_comm, alike]
      unfold addReporter at member
      split at member
      · exact (peered m x member).congr back
      · rcases List.mem_append.mp member with old | new
        · exact (peered m x old).congr back
        · rw [List.mem_singleton.mp new]
          exact peer.congr back

theorem believes_iff_standing : d.Believes m ↔ ∃ s, d.standing m = some s ∧ s.Calm := by
  constructor
  · rintro ⟨h, known, well⟩
    exact ⟨_, standing_of_known (Member.same_refl m) known, well⟩
  · rintro ⟨s, known, calm⟩
    obtain ⟨h, found, rfl⟩ := known_of_standing (Member.same_refl m) known
    exact ⟨h, found, calm⟩

theorem believes_congr (alike : m.same k = true) : d.Believes m ↔ d.Believes k := by
  rw [Believes, Table.get?_congr alike, Believes]

theorem onSuspect_disbelieved {reporter suspect : Member} (disbelieves : ¬ d.Believes suspect) :
    d.onSuspect reporter suspect = (d, []) := by
  unfold onSuspect
  split
  · rfl
  · cases known : d.health.get? suspect with
    | none => rfl
    | some h =>
      have busy : (h.state == .finalCheck || h.state == .removed) = true := by
        cases state : h.state with
        | alive => exact absurd ⟨h, known, Or.inl state⟩ disbelieves
        | suspected => exact absurd ⟨h, known, Or.inr state⟩ disbelieves
        | finalCheck | removed => rfl
      simp only [busy, if_true]

theorem reporters_onSuspect (follows : d.Follows) {reporter suspect : Member}
    (believes : d.Believes suspect) :
    (d.onSuspect reporter suspect).1.reporters k =
      if k.same suspect then addReporter (d.reporters suspect) reporter else d.reporters k := by
  obtain ⟨h, known, well⟩ := believes
  have other : suspect.same d.self = false := by
    rw [Member.same_comm]
    exact (follows suspect h known).2
  have free : (h.state == .finalCheck || h.state == .removed) = false := by
    rcases well with state | state <;> simp [state]
  unfold onSuspect
  simp only [other, known, free, Bool.false_eq_true, if_false]
  rw [reporters_checkThreshold]
  exact reporters_reported known reporter fun _ => rfl

theorem peered_onSuspect_iff (follows : d.Follows) (peered : d.Peered) (reporter suspect : Member) :
    (d.onSuspect reporter suspect).1.Peered ↔ ¬ (d.Believes suspect ∧ ¬ d.Peer suspect reporter) := by
  have quiet := onSuspect_quiet d reporter suspect
  by_cases believes : d.Believes suspect
  · rw [peered_reported_iff peered reporter quiet.self quiet.view fun _ =>
      reporters_onSuspect follows believes]
    simp [believes]
  · rw [onSuspect_disbelieved believes]
    exact iff_of_true peered fun both => believes both.1

/-- After a report those of others are taken as before, and none is that was not. -/
theorem believes_onSuspect (reporter suspect : Member) :
    ((d.onSuspect reporter suspect).1.Believes k → d.Believes k) ∧
      (k.same suspect = false → d.Believes k → (d.onSuspect reporter suspect).1.Believes k) := by
  have apart : k.same suspect = false →
      ((d.onSuspect reporter suspect).1.Believes k ↔ d.Believes k) := fun apart => by
    rw [believes_iff_standing, (onSuspect_spares apart reporter).standing, ← believes_iff_standing]
  refine ⟨fun after => ?_, fun other => (apart other).mpr⟩
  cases alike : k.same suspect with
  | false => exact (apart alike).mp after
  | true =>
    rw [believes_congr alike] at after ⊢
    by_contra disbelieves
    rw [onSuspect_disbelieved disbelieves] at after
    exact disbelieves after

/-- A report takes nobody's reporters away. -/
theorem mem_reporters_onSuspect (follows : d.Follows) {reporter suspect x : Member}
    (member : x ∈ d.reporters k) : x ∈ (d.onSuspect reporter suspect).1.reporters k := by
  by_cases believes : d.Believes suspect
  · rw [reporters_onSuspect follows believes]
    cases alike : k.same suspect with
    | false => exact member
    | true =>
      rw [if_pos rfl]
      rw [reporters_congr alike] at member
      unfold addReporter
      split
      · exact member
      · exact List.mem_append_left _ member
  · rw [onSuspect_disbelieved believes]
    exact member

theorem mem_reporters_onSuspects (follows : d.Follows) {reporter x : Member} {suspects : List Suspicion}
    (member : x ∈ d.reporters k) : x ∈ (d.onSuspects reporter suspects).1.reporters k := by
  induction suspects generalizing d with
  | nil => exact member
  | cons s rest ih =>
    exact ih (follows_of_quiet follows (onSuspect_quiet d reporter s.suspect))
      (mem_reporters_onSuspect follows member)

theorem peered_onSuspects_iff (follows : d.Follows) (peered : d.Peered) (reporter : Member)
    (suspects : List Suspicion) : (d.onSuspects reporter suspects).1.Peered ↔
      ¬ ∃ s ∈ suspects, d.Believes s.suspect ∧ ¬ d.Peer s.suspect reporter := by
  induction suspects generalizing d with
  | nil => exact iff_of_true peered (by simp)
  | cons s rest ih =>
    have quiet := onSuspect_quiet d reporter s.suspect
    have follows' := follows_of_quiet follows quiet
    have first := peered_onSuspect_iff follows peered reporter s.suspect
    have peers : ∀ k x, (d.onSuspect reporter s.suspect).1.Peer k x ↔ d.Peer k x := fun k x => by
      rw [Peer, quiet.self, quiet.view, Peer]
    by_cases intrudes : d.Believes s.suspect ∧ ¬ d.Peer s.suspect reporter
    · refine iff_of_false (fun after => first.mp ?_ intrudes) fun none =>
        none ⟨s, List.mem_cons_self, intrudes⟩
      -- whom the first report brings stays to the end
      have later := onSuspects_quiet (d.onSuspect reporter s.suspect).1 reporter rest
      intro m x member
      have stays := after m x (mem_reporters_onSuspects follows' member)
      exact ⟨later.view ▸ stays.1, stays.2.1, later.self ▸ stays.2.2⟩
    · refine (ih follows' (first.mpr intrudes)).trans (not_congr ?_)
      simp only [peers, List.exists_mem_cons_iff, intrudes, false_or]
      refine exists_congr fun t => and_congr_right fun _ => and_congr_left fun foreign => ?_
      refine ⟨(believes_onSuspect reporter s.suspect).1, fun believes => ?_⟩
      refine (believes_onSuspect reporter s.suspect).2 ?_ believes
      refine Bool.eq_false_iff.mpr fun alike =>
        intrudes ⟨(believes_congr alike).mp believes, fun peer => ?_⟩
      exact foreign (peer.congr (by rw [Member.same_comm, alike]))

theorem onRemoveRequested_unheeded {requester : Member} (unheeded : ¬ d.Heeds m) :
    d.onRemoveRequested requester m = (d, []) := by
  unfold onRemoveRequested
  split
  · rfl
  · cases known : d.health.get? m with
    | none => rfl
    | some h =>
      have removed : h.state = .removed := by
        by_contra kept
        exact unheeded ⟨h, known, kept⟩
      simp only [removed]

theorem reporters_onRemoveRequested (follows : d.Follows) {requester : Member} (heeds : d.Heeds m) :
    (d.onRemoveRequested requester m).1.reporters k =
      if k.same m then addReporter (d.reporters m) requester else d.reporters k := by
  obtain ⟨h, known, allowed⟩ := heeds
  have other : m.same d.self = false := by
    rw [Member.same_comm]
    exact (follows m h known).2
  unfold onRemoveRequested
  cases state : h.state with
  | alive | suspected =>
    simp only [other, known, state, Bool.false_eq_true, if_false]
    rw [reporters_beginFinalCheck]
    exact reporters_reported known requester fun _ => rfl
  | finalCheck =>
    simp only [other, known, state, Bool.false_eq_true, if_false]
    exact reporters_reported known requester fun _ => rfl
  | removed => exact absurd state allowed

theorem peered_onRemoveRequested_iff (follows : d.Follows) (peered : d.Peered) (requester m : Member) :
    (d.onRemoveRequested requester m).1.Peered ↔ ¬ (d.Heeds m ∧ ¬ d.Peer m requester) := by
  have quiet := onRemoveRequested_quiet d requester m
  by_cases heeds : d.Heeds m
  · rw [peered_reported_iff peered requester quiet.self quiet.view
      fun _ => reporters_onRemoveRequested follows heeds]
    simp [heeds]
  · rw [onRemoveRequested_unheeded heeds]
    exact iff_of_true peered fun both => heeds both.1

/-! ### Every run -/

/-- In a move the detector takes the word of somebody who may not corroborate, or the view goes on without
somebody whose word still counts. -/
def Intrudes (d : Detector) (x : Move) : Prop := d.Admits x ∨ d.Outlives (d.move x).1.view

theorem peered_move_iff (follows : d.Follows) (ordered : d.health.Ordered) (peered : d.Peered) (x : Move) :
    (d.move x).1.Peered ↔ ¬ d.Intrudes x := by
  have unsaid : ¬ d.Admits x → ((d.move x).1.Peered ↔ ¬ d.Outlives (d.move x).1.view) →
      ((d.move x).1.Peered ↔ ¬ d.Intrudes x) := fun unsaid kept => by simp [Intrudes, unsaid, kept]
  have reported : Quiet d (d.move x) → ((d.move x).1.Peered ↔ ¬ d.Admits x) →
      ((d.move x).1.Peered ↔ ¬ d.Intrudes x) := fun quiet said => by
    simp [Intrudes, quiet.view, not_outlives peered, said]
  cases x with
  | timers schedule =>
    exact unsaid id (peered_quietly peered (.of_health rfl) (.of_same_health rfl rfl rfl))
  | start => exact unsaid id (peered_quietly peered (.of_health rfl) (scheduleTick_quiet d ⟨0⟩))
  | stop => exact unsaid id (peered_quietly peered d.stop_forgets (stop_quiet d))
  | handle event =>
    cases event with
    | heartbeatTick => exact unsaid id (peered_quietly peered d.onTick_forgets (onTick_quiet d))
    | heartbeatTimeout m request =>
      exact unsaid id (peered_quietly peered (d.onHeartbeatTimeout_forgets m request)
        (onHeartbeatTimeout_quiet d m request))
    | heartbeatResponse source request =>
      exact unsaid id (peered_quietly peered (d.onResponse_forgets source request false)
        (onResponse_quiet d source request false))
    | finalCheckResponse source request =>
      exact unsaid id (peered_quietly peered (d.onResponse_forgets source request true)
        (onResponse_quiet d source request true))
    | suspectReceived reporter suspects =>
      exact reported (onSuspects_quiet d reporter suspects)
        (peered_onSuspects_iff follows peered reporter suspects)
    | removeRequested requester m _ =>
      exact reported (onRemoveRequested_quiet d requester m)
        (peered_onRemoveRequested_iff follows peered requester m)
    | viewInstalled view => exact unsaid id (peered_install_iff ordered peered view)
    | finalCheckTimeout m request => exact unsaid id (peered_failure_iff ordered peered m request)
    | finalCheckFailed m request => exact unsaid id (peered_failure_iff ordered peered m request)

end

theorem peered_create (self : Member) (view : View) (settings : Settings) (policy : LossPolicy)
    (now : Nat) : (create self view settings policy now).Peered := by
  intro m x member
  cases known : (create self view settings policy now).health.get? m with
  | none =>
    rw [reporters_of_unknown known] at member
    cases member
  | some h =>
    rw [reporters_of_known known] at member
    have known : (track self [] view).get? m = some h := known
    rcases get?_track self view [] m with same | ⟨-, -, healthy⟩
    · rw [same] at known
      cases known
    · rw [healthy] at known
      cases known
      cases member

/-- In every run of a detector: only other members of the view, and not its own, ever corroborate a
suspicion, if and only if nobody else's word is taken, and no view goes on without a member whose word
still counts. -/
theorem peered_iff_of_run (self : Member) (view : View) (settings : Settings) (policy : LossPolicy)
    (now : Nat) (moves : List Move) :
    let d := create self view settings policy now
    (∀ part rest, moves = part ++ rest → (d.after part).Peered) ↔
      ∀ part x rest, moves = part ++ x :: rest → ¬ (d.after part).Intrudes x := by
  intro d
  refine always_iff (peered_create self view settings policy now) (fun part x peered => ?_) moves
  exact peered_move_iff (follows_after (follows_create self view settings policy now) part)
    (ordered_after (ordered_create self view settings policy now) part) peered x

/-- A detector of the first of three members, which checks the others when two things speak against
them. -/
def ofTrio : Detector :=
  create (.peer 1) ⟨1, .peer 1, [.peer 1, .peer 2, .peer 3], [], []⟩
    ⟨⟨1⟩, ⟨1⟩, ⟨1⟩, 2, false, .listed⟩ (.count 50) 0

/-- The third member reports the second one and leaves. -/
def lastWord : List Move :=
  [.handle (.suspectReceived (.peer 3) [⟨.peer 2, "heartbeat timed out"⟩]),
    .handle (.viewInstalled ⟨2, .peer 1, [.peer 1, .peer 2], [.peer 3], []⟩)]

/-- Its word still counts: one missed heartbeat is enough for a final check. -/
theorem lastWord_counts : ¬ (ofTrio.after lastWord).Peered ∧
    ofTrio.wants (lastWord ++ [.handle .heartbeatTick, .handle (.heartbeatTimeout (.peer 2) 1)]) =
      [.sendHeartbeat (.peer 2) 1, .sendFinalCheck (.peer 2) 2] := by
  refine ⟨fun peered => ?_, by decide⟩
  have present := (peered (.peer 2) (.peer 3) (by decide)).1
  exact absurd present (by decide)

end Cohort.Detector
