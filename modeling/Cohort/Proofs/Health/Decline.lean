import Cohort.Proofs.Health.Removal

/-! Work of a detector in which nobody recovers. All that a detector does between two views is of this
kind, but for the answers that bring a member back. -/

namespace Cohort.Detector

/-- Whether an action says what becomes of those whose final check failed. -/
def Action.isVerdict : Action → Bool
  | .installView _ | .requestRemoval _ _ _ | .partitionDetected _ _ _ => true
  | _ => false

/-- Only a member under its final check has an answer to one outstanding. -/
def Health.Tidy (h : Health) : Prop := h.finalCheck.isSome = true → h.state = .finalCheck

/-- One health of a member goes on to another, and not to a better one. -/
structure Health.Declines (old new : Health) : Prop where
  ill : old.state ≠ .alive → new.state ≠ .alive
  tidy : old.Tidy → new.Tidy

theorem Health.Declines.refl (h : Health) : h.Declines h := ⟨id, id⟩

theorem Health.Declines.trans {a b c : Health} (first : a.Declines b) (second : b.Declines c) :
    a.Declines c :=
  ⟨second.ill ∘ first.ill, second.tidy ∘ first.tidy⟩

/-- The detector watches the same members in the same view in the same way. -/
structure Continues (d e : Detector) : Prop where
  self : e.self = d.self
  view : e.view = d.view
  settings : e.settings = d.settings
  policy : e.policy = d.policy
  keys : e.health.map (·.1) = d.health.map (·.1)

theorem Continues.refl (d : Detector) : Continues d d := ⟨rfl, rfl, rfl, rfl, rfl⟩

theorem Continues.trans {d e f : Detector} (first : Continues d e) (second : Continues e f) :
    Continues d f :=
  ⟨second.self.trans first.self, second.view.trans first.view, second.settings.trans first.settings,
    second.policy.trans first.policy, second.keys.trans first.keys⟩

theorem keys_update (table : Table) (m : Member) (f : Health → Health) :
    (table.update m f).map (·.1) = table.map (·.1) := by
  simp only [Table.update, List.map_map]
  refine List.map_congr_left fun entry _ => ?_
  obtain ⟨key, h⟩ := entry
  simp only [Function.comp_apply]
  split <;> rfl

/-- Work after which nobody is better off, and which passes no verdict. -/
structure Declines (d : Detector) (result : Detector × List Action) : Prop where
  continues : Continues d result.1
  partitioned : result.1.partitioned = d.partitioned
  health : ∀ k, Option.Rel Health.Declines (d.health.get? k) (result.1.health.get? k)
  modest : ∀ a ∈ result.2, a.isVerdict = false

theorem Declines.of_same_health {d e : Detector} (continues : Continues d e)
    (partitioned : e.partitioned = d.partitioned) (health : e.health = d.health) :
    Declines d (e, []) where
  continues := continues
  partitioned := partitioned
  health k := by
    dsimp only
    rw [health]
    cases d.health.get? k with
    | none => exact .none
    | some h => exact .some (.refl h)
  modest := by simp

theorem Declines.refl (d : Detector) : Declines d (d, []) := .of_same_health (.refl d) rfl rfl

theorem Declines.trans {d : Detector} {first second : Detector × List Action}
    (before : Declines d first) (after : Declines first.1 second) :
    Declines d (second.1, first.2 ++ second.2) where
  continues := before.continues.trans after.continues
  partitioned := after.partitioned.trans before.partitioned
  health k := by
    have earlier := before.health k
    have later := after.health k
    revert earlier later
    generalize d.health.get? k = a
    generalize first.1.health.get? k = b
    generalize second.1.health.get? k = c
    rintro (⟨first⟩ | _) (⟨second⟩ | _)
    · exact .some (first.trans second)
    · exact .none
  modest a member := by
    rcases List.mem_append.mp member with early | late
    · exact before.modest a early
    · exact after.modest a late

/-- What is announced besides does not matter, as long as it is no verdict. -/
theorem Declines.announce {d e : Detector} {actions : List Action} (declines : Declines d (e, actions))
    (news : List Action) (modest : ∀ a ∈ news, a.isVerdict = false) :
    Declines d (e, news ++ actions) where
  continues := declines.continues
  partitioned := declines.partitioned
  health := declines.health
  modest a member := by
    rcases List.mem_append.mp member with fresh | old
    · exact modest a fresh
    · exact declines.modest a old

theorem Declines.mark (d : Detector) (m : Member) (f : Health → Health)
    (worse : ∀ h, d.health.get? m = some h → h.Declines (f h)) : Declines d (d.update m f, []) where
  continues := ⟨rfl, rfl, rfl, rfl, keys_update d.health m f⟩
  partitioned := rfl
  health k := by
    rw [get?_mark]
    split
    · rename_i alike
      rw [Table.get?_congr alike]
      cases known : d.health.get? m with
      | none => exact .none
      | some h => exact .some (worse h known)
    · cases d.health.get? k with
      | none => exact .none
      | some h => exact .some (.refl h)
  modest := by simp

theorem Declines.ill {d : Detector} {result : Detector × List Action} (declines : Declines d result)
    {k : Member} {h : Health} (known : d.health.get? k = some h) (ill : h.state ≠ .alive) :
    ∃ new, result.1.health.get? k = some new ∧ new.state ≠ .alive := by
  have related := declines.health k
  rw [known] at related
  generalize result.1.health.get? k = answer at related
  cases related with
  | some declines => exact ⟨_, rfl, declines.ill ill⟩

theorem Declines.tidy {d : Detector} {result : Detector × List Action} (declines : Declines d result)
    {k : Member} {new : Health} (known : result.1.health.get? k = some new)
    (tidy : ∀ h, d.health.get? k = some h → h.Tidy) : new.Tidy := by
  have related := declines.health k
  rw [known] at related
  generalize found : d.health.get? k = answer at related
  cases related with
  | some declines => exact declines.tidy (tidy _ found)

/-! ### The handlers -/

section
variable (d : Detector) (m : Member)

theorem disarm_declines (ids : List Nat) : Declines d (d.disarm ids, []) :=
  .of_same_health ⟨rfl, rfl, rfl, rfl, rfl⟩ rfl rfl

theorem scheduleTick_declines (delay : Span) : Declines d (d.scheduleTick delay, []) :=
  .of_same_health ⟨rfl, rfl, rfl, rfl, rfl⟩ rfl rfl

theorem withoutRequests_declines (h : Health) : h.Declines h.withoutRequests :=
  ⟨id, fun _ checked => by simp [Health.withoutRequests] at checked⟩

theorem cancelRequests_declines : Declines d (d.cancelRequests m, []) := by
  unfold cancelRequests
  split
  · exact .refl d
  · exact (disarm_declines d _).trans
      (.mark _ m Health.withoutRequests fun h _ => withoutRequests_declines h)

theorem stop_declines : Declines d (d.stop, []) where
  continues := by
    refine ⟨rfl, rfl, rfl, rfl, ?_⟩
    change (d.health.map fun entry => (entry.1, entry.2.withoutRequests)).map (·.1) = _
    rw [List.map_map]
    rfl
  partitioned := rfl
  health k := by
    have answer : d.stop.health.get? k = (d.health.get? k).map Health.withoutRequests :=
      Table.get?_map d.health Health.withoutRequests k
    dsimp only
    rw [answer]
    cases d.health.get? k with
    | none => exact .none
    | some h => exact .some (withoutRequests_declines h)
  modest := by simp

theorem beat_declines : Declines d ((d.beat m).1, [(d.beat m).2]) := by
  have armed : Declines d
      ((d.request.1.arm d.settings.memberTimeout (.heartbeatTimeout m d.nextRequest)).1, []) :=
    .of_same_health ⟨rfl, rfl, rfl, rfl, rfl⟩ rfl rfl
  have marked := armed.trans (Declines.mark _ m
    (fun h => { h with heartbeat := some ⟨d.nextRequest, d.timers.nextId⟩ }) fun h _ => ⟨id, id⟩)
  exact marked.announce [.sendHeartbeat m d.nextRequest] (by simp [Action.isVerdict])

theorem beatAll_declines (members : List Member) : Declines d (d.beatAll members) := by
  induction members generalizing d with
  | nil => exact .refl d
  | cons m rest ih => exact (beat_declines d m).trans (ih (d.beat m).1)

theorem onTick_declines : Declines d d.onTick := by
  have beaten := beatAll_declines d d.addressees
  have scheduled := beaten.trans (scheduleTick_declines _ d.settings.heartbeatInterval)
  rw [List.append_nil] at scheduled
  simpa only [onTick, beaten.continues.settings] using scheduled

theorem beginFinalCheck_declines : Declines d (d.beginFinalCheck m) := by
  have armed : Declines d
      ((d.request.1.arm d.settings.finalCheckTimeout (.finalCheckTimeout m d.nextRequest)).1, []) :=
    .of_same_health ⟨rfl, rfl, rfl, rfl, rfl⟩ rfl rfl
  have checked := (armed.trans (cancelRequests_declines _ m)).trans (Declines.mark _ m
    (fun h => { h with
      state := .finalCheck, finalCheck := some ⟨d.nextRequest, d.timers.nextId⟩ })
    fun h _ => ⟨fun _ => by simp, fun _ _ => rfl⟩)
  exact checked.announce [.sendFinalCheck m d.nextRequest] (by simp [Action.isVerdict])

theorem checkThreshold_declines : Declines d (d.checkThreshold m) := by
  unfold checkThreshold
  split
  · exact .refl d
  · split
    · exact beginFinalCheck_declines d m
    · exact .refl d

theorem onHeartbeatTimeout_declines (request : UInt64) :
    Declines d (d.onHeartbeatTimeout m request) := by
  unfold onHeartbeatTimeout
  split
  · exact .refl d
  · split
    · exact .refl d
    · have missed := Declines.mark d m
        (fun h => { h with
          heartbeat := none
          missed := h.missed + 1
          state := if h.state == .alive then .suspected else h.state })
        (fun h _ => ⟨fun ill => by simp [ill], fun tidy checked => by simp [tidy checked]⟩)
      refine (missed.trans (checkThreshold_declines _ m)).announce _ ?_
      intro a member
      split at member <;> simp_all [Action.isVerdict]

/-- A report suspects a member that is not under its final check. -/
theorem suspect_declines (reporter : Member) {h : Health} (known : d.health.get? m = some h)
    (unchecked : h.state ≠ .finalCheck) :
    Declines d (d.update m fun h => { h.report reporter with state := .suspected }, []) := by
  refine .mark d m _ fun old found => ⟨fun _ => by simp, fun tidy checked => ?_⟩
  rw [known] at found
  cases found
  rw [(report_gentle reporter h).2] at checked
  exact absurd (tidy checked) unchecked

theorem onSuspect_declines (reporter suspect : Member) : Declines d (d.onSuspect reporter suspect) := by
  unfold onSuspect
  split
  · exact .refl d
  · split
    · exact .refl d
    · rename_i h known
      split
      · exact .refl d
      · rename_i free
        have unchecked : h.state ≠ .finalCheck := by
          intro checked
          simp [checked] at free
        exact (suspect_declines d suspect reporter known unchecked).trans
          (checkThreshold_declines _ suspect)

theorem onSuspects_declines (reporter : Member) (suspects : List Suspicion) :
    Declines d (d.onSuspects reporter suspects) := by
  induction suspects generalizing d with
  | nil => exact .refl d
  | cons s rest ih => exact (onSuspect_declines d reporter s.suspect).trans (ih _)

theorem onRemoveRequested_declines (requester : Member) :
    Declines d (d.onRemoveRequested requester m) := by
  have checks : ∀ h, d.health.get? m = some h → h.state ≠ .finalCheck →
      Declines d ((d.update m fun h =>
        { h.report requester with state := .suspected }).beginFinalCheck m) := fun h known free =>
    (suspect_declines d m requester known free).trans (beginFinalCheck_declines _ m)
  unfold onRemoveRequested
  split
  · exact .refl d
  · split
    · exact .refl d
    · rename_i h known
      split
      · rename_i alive
        exact checks h known (by simp [alive])
      · rename_i suspected
        exact checks h known (by simp [suspected])
      · refine Declines.mark d m (·.report requester) fun h _ => ?_
        obtain ⟨state, check⟩ := report_gentle requester h
        exact ⟨fun ill => state ▸ ill, fun tidy checked => by
          rw [state]
          exact tidy (check ▸ checked)⟩
      · exact .refl d

theorem markFailed_declines (h : Health) : Declines d (d.markFailed m h, []) :=
  (disarm_declines d _).trans (.mark _ m (fun h => { h with finalCheck := none, state := .removed })
    fun _ _ => ⟨fun _ => by simp, fun _ checked => by simp at checked⟩)

theorem resuspect_declines : Declines d (d.resuspect m, []) := by
  refine (cancelRequests_declines d m).trans (.mark _ m
    (fun h => { h with state := .suspected, missed := 0, reporters := [] })
    fun h known => ⟨fun _ => by simp, fun _ checked => ?_⟩)
  rw [get?_cancelRequests, if_pos (Member.same_refl m)] at known
  obtain ⟨old, -, rfl⟩ := Option.map_eq_some_iff.mp known
  simp [Health.withoutRequests] at checked

theorem resuspectAll_declines (members : List Member) : Declines d (members.foldl resuspect d, []) := by
  induction members generalizing d with
  | nil => exact .refl d
  | cons m rest ih => exact (resuspect_declines d m).trans (ih _)

theorem settleHeartbeat_declines (h : Health) (answered : Bool) :
    Declines d (d.settleHeartbeat m h answered, []) := by
  unfold settleHeartbeat
  split
  · exact (disarm_declines d _).trans
      (.mark _ m (fun h => { h with heartbeat := none }) fun _ _ => ⟨id, id⟩)
  · exact .refl d

end

/-! ### Answers and views -/

/-- A member that answers is well. -/
def recover (d : Detector) (m : Member) : Detector :=
  d.update m fun h => { h with finalCheck := none, state := .alive, missed := 0, reporters := [] }

/-- A response changes nothing for the better, or else brings a member back, after which a declared
partition may be over. -/
theorem onResponse_declines (d : Detector) (source : Member) (request : UInt64) (final : Bool) :
    Declines d (d.onResponse source request final, []) ∨
      ∃ e, Declines d (e, []) ∧ d.onResponse source request final = (e.recover source).checkHealed := by
  rcases onResponse_cases d source request final with
    ⟨-, same⟩ | ⟨h, -, ⟨-, same⟩ | ⟨-, same⟩ | same⟩
  · rw [same]
    exact Or.inl (.refl d)
  · rw [same]
    exact Or.inl (.refl d)
  · rw [same]
    exact Or.inl ((settleHeartbeat_declines d source h _).trans
      (.mark _ source (fun h => { h with missed := 0 }) fun _ _ => ⟨id, id⟩))
  · exact Or.inr ⟨_, (settleHeartbeat_declines d source h _).trans (disarm_declines _ _), same⟩

/-! ### Failed checks -/

/-- Puts everybody who is unreachable back under suspicion, and declares a partition. -/
def declare (d : Detector) : Detector :=
  { d.unreachable.foldl resuspect d with partitioned := true }

theorem declare_declines (d : Detector) : Declines d (d.unreachable.foldl resuspect d, []) :=
  resuspectAll_declines d d.unreachable

/-- A partition that is looked for is not declared any more. -/
def undivided (d : Detector) : Detector :=
  { d with partitioned := !d.settings.partitionDetection && d.partitioned }

/-- What a failed check leads to: nothing, a partition that is declared and announced if it was not
before, or removals. -/
theorem conclude_verdict (d : Detector) :
    d.membersIn [.removed] = [] ∧ d.conclude = (d, []) ∨
    d.settings.partitionDetection = true ∧
      (d.policy.assess d.view d.unreachable).partitioned = true ∧
      d.conclude = (d.declare, if d.partitioned then [] else
        [.partitionDetected d.unreachable (d.policy.assess d.view d.unreachable).lost
          (d.policy.assess d.view d.unreachable).total]) ∨
    (d.settings.partitionDetection = true →
        (d.policy.assess d.view d.unreachable).partitioned = false) ∧
      d.membersIn [.removed] ≠ [] ∧
      d.conclude = d.undivided.removeFailed (d.membersIn [.removed]) := by
  cases none : (d.membersIn [.removed]).isEmpty with
  | true =>
    refine Or.inl ⟨List.isEmpty_iff.mp none, ?_⟩
    simp only [conclude, none, if_true]
  | false =>
    have some : d.membersIn [.removed] ≠ [] := by
      intro nobody
      simp [nobody] at none
    cases detects : d.settings.partitionDetection with
    | false =>
      refine Or.inr (Or.inr ⟨by simp, some, ?_⟩)
      simp only [conclude, undivided, none, detects, Bool.false_eq_true, if_false, Bool.not_false,
        Bool.true_and]
    | true =>
      cases lost : (d.policy.assess d.view d.unreachable).partitioned with
      | true =>
        refine Or.inr (Or.inl ⟨rfl, rfl, ?_⟩)
        simp only [conclude, declare, none, detects, lost, Bool.false_eq_true, if_false, if_true]
      | false =>
        refine Or.inr (Or.inr ⟨fun _ => rfl, some, ?_⟩)
        simp only [conclude, undivided, none, detects, lost, Bool.false_eq_true, if_false, if_true,
          Bool.not_true, Bool.false_and]

/-! ### Every move -/

/-- Whether a move is the answer of a member. -/
def Move.isAnswer : Move → Bool
  | .handle (.heartbeatResponse _ _) | .handle (.finalCheckResponse _ _) => true
  | _ => false

/-- What a move is: work in which nobody recovers, an answer that brings a member back, a view from
outside, or the failure of a final check. -/
inductive Happening (d : Detector) (x : Move) : Prop where
  | declines (declines : Declines d (d.move x))
  | recovers (e : Detector) (m : Member) (answer : x.isAnswer = true) (declines : Declines d (e, []))
      (moved : d.move x = ((e.recover m).checkHealed, []))
  | installs (view : View) (asked : x = .handle (.viewInstalled view))
      (moved : d.move x = (d.install view, []))
  | fails (m : Member) (request : UInt64) (h : Health) (o : Outstanding)
      (fails : Fails m request x) (known : d.health.get? m = some h) (state : h.state = .finalCheck)
      (check : h.finalCheck = some o) (same : o.request = request)
      (moved : d.move x = (d.markFailed m h).conclude)

theorem happening (d : Detector) (x : Move) : Happening d x := by
  have answers : ∀ source request final, x.isAnswer = true →
      d.move x = (d.onResponse source request final, []) → Happening d x := by
    intro source request final answer moved
    rcases onResponse_declines d source request final with declines | ⟨e, declines, same⟩
    · exact .declines (moved ▸ declines)
    · exact .recovers e source answer declines (same ▸ moved)
  have failure : ∀ m request, Fails m request x → d.move x = d.onFinalCheckFailed m request →
      Happening d x := by
    intro m request fails moved
    rcases onFinalCheckFailed_cases d m request with same | ⟨h, o, known, state, check, asked, same⟩
    · exact .declines (moved ▸ same ▸ .refl d)
    · exact .fails m request h o fails known state check asked (moved.trans same)
  cases x with
  | timers schedule => exact .declines (.of_same_health ⟨rfl, rfl, rfl, rfl, rfl⟩ rfl rfl)
  | start => exact .declines (scheduleTick_declines d ⟨0⟩)
  | stop => exact .declines (stop_declines d)
  | handle event =>
    cases event with
    | heartbeatTick => exact .declines (onTick_declines d)
    | heartbeatTimeout member request => exact .declines (onHeartbeatTimeout_declines d member request)
    | heartbeatResponse source request => exact answers source request false rfl rfl
    | suspectReceived reporter suspects => exact .declines (onSuspects_declines d reporter suspects)
    | finalCheckTimeout m request => exact failure m request ⟨Member.same_refl m, rfl⟩ rfl
    | finalCheckResponse source request => exact answers source request true rfl rfl
    | finalCheckFailed m request => exact failure m request ⟨Member.same_refl m, rfl⟩ rfl
    | removeRequested requester m reason => exact .declines (onRemoveRequested_declines d m requester)
    | viewInstalled view => exact .installs view rfl rfl

/-- The view describes everybody who is followed. -/
theorem isIn_membersIn {d : Detector} (follows : d.Follows) {k : Member} {h : Health}
    (known : d.health.get? k = some h) {states : List HealthState} (state : h.state ∈ states) :
    k.isIn (d.membersIn states) = true := by
  obtain ⟨x, member, alike⟩ := (View.contains_iff d.view k).mp (follows k h known).1
  refine (Member.isIn_iff k _).mpr ⟨x, (mem_membersIn d states x).mpr ⟨member, h, ?_, state⟩, alike⟩
  exact (Table.get?_congr alike).symm.trans known

/-! ### Who is left in which state -/

/-- Whoever was put back under suspicion is under no check; the others are as they were. -/
theorem get?_resuspectAll {d : Detector} {members : List Member} {k : Member} {h : Health}
    (known : (members.foldl resuspect d).health.get? k = some h) :
    h.state = .suspected ∧ h.finalCheck = none ∨
      k.isIn members = false ∧ d.health.get? k = some h := by
  induction members generalizing d with
  | nil => exact Or.inr ⟨rfl, known⟩
  | cons m rest ih =>
    rcases ih known with suspected | ⟨apart, kept⟩
    · exact Or.inl suspected
    · rw [get?_resuspect] at kept
      split at kept
      · obtain ⟨old, -, rfl⟩ := Option.map_eq_some_iff.mp kept
        exact Or.inl ⟨rfl, rfl⟩
      · rename_i other
        refine Or.inr ⟨?_, kept⟩
        simp only [Member.isIn, List.any_cons, Bool.or_eq_false_iff]
        exact ⟨Bool.eq_false_iff.mpr other, apart⟩

/-- Whoever is followed is in the view, so whoever is under its final check or failed it is
unreachable. -/
theorem isIn_unreachable {d : Detector} (follows : d.Follows) {k : Member} {h : Health}
    (known : d.health.get? k = some h) (state : h.state = .finalCheck ∨ h.state = .removed) :
    k.isIn d.unreachable = true := by
  unfold unreachable
  split <;> refine isIn_membersIn follows known ?_ <;> rcases state with state | state <;> simp [state]

theorem some_removed_of_markFailed {d : Detector} (follows : d.Follows) {m : Member} {h : Health}
    (known : d.health.get? m = some h) : (d.markFailed m h).membersIn [.removed] ≠ [] := by
  have own : (d.markFailed m h).health.get? m =
      some { h with finalCheck := none, state := .removed } := by
    unfold markFailed
    rw [get?_mark, if_pos (Member.same_refl m)]
    exact congrArg (Option.map _) known
  intro nobody
  have failed := isIn_membersIn (follows_markFailed follows m h) own
    (List.mem_singleton_self HealthState.removed)
  rw [nobody] at failed
  contradiction

end Cohort.Detector
