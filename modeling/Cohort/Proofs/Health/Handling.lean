import Cohort.Proofs.Health.Run

/-! What each handler of a detector leaves of the others' healths. Where a handler does not install a
view it follows the same members before and after, and a health that it hands on is a health it
found, is out of danger, or is under a final check that it has just sent. -/

namespace Cohort.Detector

/-! ### Small steps -/

section
variable (d : Detector) (m k : Member)

@[simp] theorem arm_fields (delay : Span) (event : Event) :
    (d.arm delay event).1.health = d.health ∧ (d.arm delay event).1.view = d.view ∧
      (d.arm delay event).1.self = d.self := ⟨rfl, rfl, rfl⟩

@[simp] theorem disarm_fields (ids : List Nat) :
    (d.disarm ids).health = d.health ∧ (d.disarm ids).view = d.view ∧
      (d.disarm ids).self = d.self := ⟨rfl, rfl, rfl⟩

theorem cancelRequests_view : (d.cancelRequests m).view = d.view := by
  unfold cancelRequests
  split <;> rfl

theorem cancelRequests_self : (d.cancelRequests m).self = d.self := by
  unfold cancelRequests
  split <;> rfl

theorem get?_cancelRequests : (d.cancelRequests m).health.get? k =
    if k.same m then (d.health.get? k).map Health.withoutRequests else d.health.get? k := by
  unfold cancelRequests
  split
  · rename_i unknown
    by_cases alike : k.same m = true
    · simp [alike, Table.get?_congr alike, unknown]
    · simp [alike]
  · exact Table.get?_update d.health m k Health.withoutRequests

theorem get?_mark (f : Health → Health) : (d.update m f).health.get? k =
    if k.same m then (d.health.get? k).map f else d.health.get? k :=
  Table.get?_update d.health m k f

theorem get?_beginFinalCheck : (d.beginFinalCheck m).1.health.get? k =
    if k.same m then (d.health.get? k).map fun h =>
      { h.withoutRequests with
        state := .finalCheck, finalCheck := some ⟨d.nextRequest, d.timers.nextId⟩ }
    else d.health.get? k := by
  simp only [beginFinalCheck, get?_mark, get?_cancelRequests]
  split
  · simp only [Option.map_map]
    rfl
  · rfl

theorem get?_resuspect : (d.resuspect m).health.get? k =
    if k.same m then (d.health.get? k).map fun h =>
      { h.withoutRequests with state := .suspected, missed := 0, reporters := [] }
    else d.health.get? k := by
  simp only [resuspect, get?_mark, get?_cancelRequests]
  split
  · simp only [Option.map_map]
    rfl
  · rfl

end

/-! ### Where a health comes from -/

/-- Whether an action removes members or asks somebody for that. -/
def Action.isRemoval : Action → Bool
  | .installView _ | .requestRemoval _ _ _ => true
  | _ => false

/-- Where a health that some work of the detector leaves comes from, as far as removals go. -/
inductive Source (d : Detector) (actions : List Action) (k : Member) (h : Health) : Prop where
  /-- It is in no danger. -/
  | calm (state : h.state = .alive ∨ h.state = .suspected)
  /-- It is as far on the way as it was, and under no other final check. -/
  | kept (old : Health) (known : d.health.get? k = some old) (state : h.state = old.state)
      (check : ∀ o, h.finalCheck = some o → old.finalCheck = some o)
  /-- It is under a final check that was sent just now. -/
  | asked (target : Member) (request : UInt64) (sent : .sendFinalCheck target request ∈ actions)
      (alike : target.same k = true) (state : h.state = .finalCheck)
      (check : ∀ o, h.finalCheck = some o → o.request = request)

theorem Source.weaken {d : Detector} {k : Member} {h : Health} {few many : List Action}
    (source : Source d few k h) (included : few ⊆ many) : Source d many k h := by
  cases source with
  | calm state => exact .calm state
  | kept old known state check => exact .kept old known state check
  | asked target request sent alike state check =>
    exact .asked target request (included sent) alike state check

theorem Source.trans {d e : Detector} {k : Member} {h : Health} {first second : List Action}
    (before : ∀ h, e.health.get? k = some h → Source d first k h) (after : Source e second k h) :
    Source d (first ++ second) k h := by
  cases after with
  | calm state => exact .calm state
  | asked target request sent alike state check =>
    exact .asked target request (List.mem_append_right _ sent) alike state check
  | kept old known state check =>
    cases before old known with
    | calm calm => exact .calm (state ▸ calm)
    | kept older known' state' check' =>
      exact .kept older known' (state.trans state') fun o checked => check' o (check o checked)
    | asked target request sent alike state' check' =>
      exact .asked target request (List.mem_append_left _ sent) alike (state.trans state')
        fun o checked => check' o (check o checked)

/-- Work of the detector that goes on with the same view and removes nobody. -/
structure Quiet (d : Detector) (result : Detector × List Action) : Prop where
  self : result.1.self = d.self
  view : result.1.view = d.view
  tracked : ∀ k, (result.1.health.get? k).isSome = (d.health.get? k).isSome
  source : ∀ k h, result.1.health.get? k = some h → Source d result.2 k h
  harmless : ∀ a ∈ result.2, a.isRemoval = false

theorem Quiet.of_same_health {d e : Detector} (self : e.self = d.self) (view : e.view = d.view)
    (health : e.health = d.health) : Quiet d (e, []) where
  self := self
  view := view
  tracked k := by rw [health]
  source k h known := .kept h (health ▸ known) rfl fun _ checked => checked
  harmless := by simp

theorem Quiet.refl (d : Detector) : Quiet d (d, []) :=
  .of_same_health rfl rfl rfl

theorem Quiet.trans {d : Detector} {first second : Detector × List Action}
    (before : Quiet d first) (after : Quiet first.1 second) :
    Quiet d (second.1, first.2 ++ second.2) where
  self := after.self.trans before.self
  view := after.view.trans before.view
  tracked k := (after.tracked k).trans (before.tracked k)
  source k h known := Source.trans (before.source k) (after.source k h known)
  harmless a member := by
    rcases List.mem_append.mp member with earlier | later
    · exact before.harmless a earlier
    · exact after.harmless a later

/-- What is announced besides does not matter, as long as it removes nobody. -/
theorem Quiet.announce {d e : Detector} {actions : List Action} (quiet : Quiet d (e, actions))
    (news : List Action) (harmless : ∀ a ∈ news, a.isRemoval = false) :
    Quiet d (e, news ++ actions) where
  self := quiet.self
  view := quiet.view
  tracked := quiet.tracked
  source k h known := (quiet.source k h known).weaken (List.subset_append_right _ _)
  harmless a member := by
    rcases List.mem_append.mp member with fresh | old
    · exact harmless a fresh
    · exact quiet.harmless a old

/-- Changing one member's health is quiet if it leaves the member's way to a removal alone, or leads
the member out of danger. -/
theorem Quiet.mark (d : Detector) (m : Member) (f : Health → Health)
    (gentle : ∀ h, d.health.get? m = some h →
      (f h).state = .alive ∨ (f h).state = .suspected ∨
        (f h).state = h.state ∧ ∀ o, (f h).finalCheck = some o → h.finalCheck = some o) :
    Quiet d (d.update m f, []) where
  self := rfl
  view := rfl
  tracked k := by
    rw [get?_mark]
    split <;> simp
  source k h known := by
    rw [get?_mark] at known
    split at known
    · rename_i alike
      obtain ⟨old, found, rfl⟩ := Option.map_eq_some_iff.mp known
      rcases gentle old (Table.get?_congr alike ▸ found) with alive | suspected | ⟨state, check⟩
      · exact .calm (Or.inl alive)
      · exact .calm (Or.inr suspected)
      · exact .kept old found state check
    · exact .kept h known rfl fun _ checked => checked
  harmless := by simp

/-! ### The handlers -/

theorem disarm_quiet (d : Detector) (ids : List Nat) : Quiet d (d.disarm ids, []) :=
  .of_same_health rfl rfl rfl

theorem scheduleTick_quiet (d : Detector) (delay : Span) : Quiet d (d.scheduleTick delay, []) :=
  .of_same_health rfl rfl rfl

theorem stop_quiet (d : Detector) : Quiet d (d.stop, []) where
  self := rfl
  view := rfl
  tracked k := by
    have answer : d.stop.health.get? k = (d.health.get? k).map Health.withoutRequests :=
      Table.get?_map d.health Health.withoutRequests k
    simp [answer]
  source k h known := by
    have answer : d.stop.health.get? k = (d.health.get? k).map Health.withoutRequests :=
      Table.get?_map d.health Health.withoutRequests k
    obtain ⟨old, found, rfl⟩ := Option.map_eq_some_iff.mp (answer ▸ known)
    exact .kept old found rfl (by simp [Health.withoutRequests])
  harmless := by simp

theorem beat_quiet (d : Detector) (m : Member) : Quiet d ((d.beat m).1, [(d.beat m).2]) := by
  have armed : Quiet d
      ((d.request.1.arm d.settings.memberTimeout (.heartbeatTimeout m d.nextRequest)).1, []) :=
    .of_same_health rfl rfl rfl
  have marked := armed.trans (Quiet.mark _ m
    (fun h => { h with heartbeat := some ⟨d.nextRequest, d.timers.nextId⟩ })
    (fun h _ => Or.inr (Or.inr ⟨rfl, fun _ checked => checked⟩)))
  exact marked.announce [.sendHeartbeat m d.nextRequest] (by simp [Action.isRemoval])

theorem beatAll_quiet (d : Detector) (members : List Member) : Quiet d (d.beatAll members) := by
  induction members generalizing d with
  | nil => exact .refl d
  | cons m rest ih => exact (beat_quiet d m).trans (ih (d.beat m).1)

theorem onTick_quiet (d : Detector) : Quiet d d.onTick := by
  have beaten := beatAll_quiet d d.addressees
  have scheduled := beaten.trans (scheduleTick_quiet _ d.settings.heartbeatInterval)
  rw [List.append_nil] at scheduled
  have settings : ∀ (e : Detector) (members : List Member),
      (e.beatAll members).1.settings = e.settings := by
    intro e members
    induction members generalizing e with
    | nil => rfl
    | cons m rest ih => exact ih (e.beat m).1
  simpa only [onTick, settings] using scheduled

theorem beginFinalCheck_quiet (d : Detector) (m : Member) : Quiet d (d.beginFinalCheck m) where
  self := cancelRequests_self _ m
  view := cancelRequests_view _ m
  tracked k := by
    rw [get?_beginFinalCheck]
    split <;> simp
  source k h known := by
    rw [get?_beginFinalCheck] at known
    split at known
    · rename_i alike
      obtain ⟨old, _, rfl⟩ := Option.map_eq_some_iff.mp known
      refine .asked m d.nextRequest List.mem_cons_self ?_ rfl ?_
      · rw [Member.same_comm]
        exact alike
      · intro o checked
        cases checked
        rfl
    · exact .kept h known rfl fun _ checked => checked
  harmless := by simp [beginFinalCheck, Action.isRemoval]

theorem checkThreshold_quiet (d : Detector) (m : Member) : Quiet d (d.checkThreshold m) := by
  unfold checkThreshold
  split
  · exact .refl d
  · split
    · exact beginFinalCheck_quiet d m
    · exact .refl d

theorem onHeartbeatTimeout_quiet (d : Detector) (m : Member) (request : UInt64) :
    Quiet d (d.onHeartbeatTimeout m request) := by
  unfold onHeartbeatTimeout
  split
  · exact .refl d
  · split
    · exact .refl d
    · have missed := Quiet.mark d m
        (fun h => { h with
          heartbeat := none
          missed := h.missed + 1
          state := if h.state == .alive then .suspected else h.state })
        (fun h _ => by cases state : h.state <;> simp)
      refine (missed.trans (checkThreshold_quiet _ m)).announce _ ?_
      intro a member
      split at member <;> simp_all [Action.isRemoval]

theorem onSuspect_quiet (d : Detector) (reporter suspect : Member) :
    Quiet d (d.onSuspect reporter suspect) := by
  unfold onSuspect
  split
  · exact .refl d
  · split
    · exact .refl d
    · split
      · exact .refl d
      · exact (Quiet.mark d suspect (fun h => { h.report reporter with state := .suspected })
          (fun _ _ => Or.inr (Or.inl rfl))).trans (checkThreshold_quiet _ suspect)

theorem onSuspects_quiet (d : Detector) (reporter : Member) (suspects : List Suspicion) :
    Quiet d (d.onSuspects reporter suspects) := by
  induction suspects generalizing d with
  | nil => exact .refl d
  | cons s rest ih => exact (onSuspect_quiet d reporter s.suspect).trans (ih _)

theorem checkHealed_quiet (d : Detector) : Quiet d (d.checkHealed, []) := by
  unfold checkHealed
  split
  · exact .of_same_health rfl rfl rfl
  · exact .refl d

theorem report_gentle (reporter : Member) (h : Health) :
    (h.report reporter).state = h.state ∧ (h.report reporter).finalCheck = h.finalCheck := by
  unfold Health.report
  split <;> exact ⟨rfl, rfl⟩

theorem onRemoveRequested_quiet (d : Detector) (requester m : Member) :
    Quiet d (d.onRemoveRequested requester m) := by
  have checked := (Quiet.mark d m (fun h => { h.report requester with state := .suspected })
    (fun _ _ => Or.inr (Or.inl rfl))).trans (beginFinalCheck_quiet _ m)
  unfold onRemoveRequested
  split
  · exact .refl d
  · split
    · exact .refl d
    · split
      · exact checked
      · exact checked
      · refine Quiet.mark d m (·.report requester) ?_
        intro h _
        obtain ⟨state, check⟩ := report_gentle requester h
        exact Or.inr (Or.inr ⟨state, fun o known => check ▸ known⟩)
      · exact .refl d

theorem resuspect_quiet (d : Detector) (m : Member) : Quiet d (d.resuspect m, []) where
  self := cancelRequests_self d m
  view := cancelRequests_view d m
  tracked k := by
    rw [get?_resuspect]
    split <;> simp
  source k h known := by
    rw [get?_resuspect] at known
    split at known
    · obtain ⟨old, _, rfl⟩ := Option.map_eq_some_iff.mp known
      exact .calm (Or.inr rfl)
    · exact .kept h known rfl fun _ checked => checked
  harmless := by simp

theorem resuspectAll_quiet (d : Detector) (members : List Member) :
    Quiet d (members.foldl resuspect d, []) := by
  induction members generalizing d with
  | nil => exact .refl d
  | cons m rest ih => exact (resuspect_quiet d m).trans (ih _)

/-! ### Answers -/

theorem awaits_iff (slot : Option Outstanding) (request : UInt64) :
    awaits slot request = true ↔ ∃ o, slot = some o ∧ o.request = request := by
  cases slot <;> simp [awaits]

/-- The request that a response answers is over. -/
def settleHeartbeat (d : Detector) (source : Member) (h : Health) (answered : Bool) : Detector :=
  if answered then
    (d.disarm (h.heartbeat.toList.map (·.timer))).update source fun h => { h with heartbeat := none }
  else d

theorem get?_settleHeartbeat {d : Detector} {source k : Member} {h new : Health} {answered : Bool}
    (known : (d.settleHeartbeat source h answered).health.get? k = some new) :
    ∃ old, d.health.get? k = some old ∧ new.state = old.state := by
  unfold settleHeartbeat at known
  split at known
  · rw [get?_mark] at known
    split at known
    · obtain ⟨old, found, rfl⟩ := Option.map_eq_some_iff.mp known
      exact ⟨old, found, rfl⟩
    · exact ⟨new, known, rfl⟩
  · exact ⟨new, known, rfl⟩

theorem settleHeartbeat_quiet (d : Detector) (source : Member) (h : Health) (answered : Bool) :
    Quiet d (d.settleHeartbeat source h answered, []) := by
  unfold settleHeartbeat
  split
  · exact (disarm_quiet d _).trans (Quiet.mark _ source (fun h => { h with heartbeat := none })
      (fun _ _ => Or.inr (Or.inr ⟨rfl, fun _ checked => checked⟩)))
  · exact .refl d

/-- The ways in which a response can go: unheard, or heard from a healthy member, or from one that it
brings back. -/
theorem onResponse_cases (d : Detector) (source : Member) (request : UInt64) (final : Bool) :
    d.health.get? source = none ∧ d.onResponse source request final = d ∨
    ∃ h, d.health.get? source = some h ∧
      ((h.state = .removed ∨ final = true ∧ awaits h.finalCheck request = false) ∧
          d.onResponse source request final = d ∨
        h.state = .alive ∧ d.onResponse source request final =
          (d.settleHeartbeat source h (!final && awaits h.heartbeat request)).update source
            (fun h => { h with missed := 0 }) ∨
        d.onResponse source request final =
          (((d.settleHeartbeat source h (!final && awaits h.heartbeat request)).disarm
            (h.finalCheck.toList.map (·.timer))).update source fun h =>
              { h with
                finalCheck := none, state := .alive, missed := 0, reporters := [] }).checkHealed) := by
  unfold onResponse settleHeartbeat
  cases known : d.health.get? source with
  | none => exact Or.inl ⟨rfl, rfl⟩
  | some h =>
    refine Or.inr ⟨h, rfl, ?_⟩
    cases removed : h.state == .removed with
    | true => exact Or.inl ⟨Or.inl (by simpa using removed), by simp [removed]⟩
    | false =>
      cases unheard : final && !awaits h.finalCheck request with
      | true => exact Or.inl ⟨Or.inr (by simpa using unheard), by simp [removed, unheard]⟩
      | false =>
        cases alive : h.state == .alive with
        | true =>
          refine Or.inr (Or.inl ⟨by simpa using alive, ?_⟩)
          simp only [removed, unheard, alive, Bool.false_eq_true, if_false, if_true]
        | false =>
          refine Or.inr (Or.inr ?_)
          simp only [removed, unheard, alive, Bool.false_eq_true, if_false]

theorem onResponse_quiet (d : Detector) (source : Member) (request : UInt64) (final : Bool) :
    Quiet d (d.onResponse source request final, []) := by
  rcases onResponse_cases d source request final with ⟨-, same⟩ | ⟨h, -, ⟨-, same⟩ | ⟨-, same⟩ | same⟩
  · rw [same]
    exact .refl d
  · rw [same]
    exact .refl d
  · rw [same]
    exact (settleHeartbeat_quiet d source h _).trans
      (Quiet.mark _ source (fun h => { h with missed := 0 })
        (fun _ _ => Or.inr (Or.inr ⟨rfl, fun _ checked => checked⟩)))
  · rw [same]
    exact (((settleHeartbeat_quiet d source h _).trans (disarm_quiet _ _)).trans
      (Quiet.mark _ source _ (fun _ _ => Or.inl rfl))).trans (checkHealed_quiet _)

/-- A member that a response leaves under its final check has not answered it. -/
theorem onResponse_unanswered {d : Detector} {source k : Member} {request : UInt64} {final : Bool}
    {h : Health} (known : (d.onResponse source request final).health.get? k = some h)
    (state : h.state = .finalCheck) (alike : source.same k = true) :
    final = true ∧ ∀ o, h.finalCheck = some o → o.request ≠ request := by
  have asked : d.health.get? source = d.health.get? k := Table.get?_congr alike
  rcases onResponse_cases d source request final with
    ⟨unknown, same⟩ | ⟨old, found, ⟨unheard, same⟩ | ⟨alive, same⟩ | same⟩
  · rw [same, ← asked, unknown] at known
    contradiction
  · rw [same, ← asked, found] at known
    cases known
    rcases unheard with removed | ⟨final, other⟩
    · rw [state] at removed
      contradiction
    · refine ⟨final, ?_⟩
      rintro o checked rfl
      simp [awaits, checked] at other
  · rw [same, get?_mark, if_pos (by rw [Member.same_comm]; exact alike)] at known
    obtain ⟨settled, kept, rfl⟩ := Option.map_eq_some_iff.mp known
    obtain ⟨before, earlier, unchanged⟩ := get?_settleHeartbeat kept
    rw [← asked, found] at earlier
    cases earlier
    simp [unchanged, alive] at state
  · have healed : ∀ e : Detector, e.checkHealed.health = e.health := by
      intro e
      unfold checkHealed
      split <;> rfl
    rw [same, healed, get?_mark, if_pos (by rw [Member.same_comm]; exact alike)] at known
    obtain ⟨_, _, rfl⟩ := Option.map_eq_some_iff.mp known
    contradiction

/-! ### Views and removals -/

theorem install_older {d : Detector} {view : View} (older : view.id < d.view.id) :
    d.install view = d := by
  simp [install, older]

theorem install_view {d : Detector} {view : View} (newer : ¬ view.id < d.view.id) :
    (d.install view).view = view := by
  simp [install, newer]

@[simp] theorem install_self (d : Detector) (view : View) : (d.install view).self = d.self := by
  unfold install
  split <;> rfl

/-- After an installation a member that is followed is in the view, and its health is the one it had
or that of a newcomer. -/
theorem get?_install {d : Detector} {view : View} {k : Member} {h : Health}
    (newer : ¬ view.id < d.view.id) (known : (d.install view).health.get? k = some h) :
    view.contains k = true ∧ (d.health.get? k = some h ∨ d.self.same k = false ∧ h = {}) := by
  have fields : (d.install view).health =
      track d.self (d.health.filter (view.contains ·.1)) view := by
    simp only [install, newer, if_false]
    rfl
  have byIdentity : ∀ a b : Member, a.same b = true → view.contains a = view.contains b :=
    fun a b alike => Member.isIn_congr alike view.members
  have chosen := Table.get?_filter d.health view.contains k byIdentity
  rw [fields] at known
  rcases get?_track d.self view (d.health.filter (view.contains ·.1)) k with
    kept | ⟨member, other, healthy⟩
  · rw [kept, chosen] at known
    cases member : view.contains k with
    | false => simp [member] at known
    | true => exact ⟨rfl, Or.inl (by simpa [member] using known)⟩
  · exact ⟨member, Or.inr ⟨other, Option.some.inj (known.symm.trans healthy)⟩⟩

theorem mem_membersIn (d : Detector) (states : List HealthState) (m : Member) :
    m ∈ d.membersIn states ↔
      m ∈ d.view.members ∧ ∃ h, d.health.get? m = some h ∧ h.state ∈ states := by
  simp only [membersIn, stateOf, List.mem_filter]
  cases d.health.get? m <;> simp

/-- The ways in which removals can go: nobody coordinates, the coordinator is asked, or this member
coordinates and installs the next view itself. -/
theorem removeFailed_cases (d : Detector) (failed : List Member) :
    ((d.removeFailed failed).1 = d ∧ ∀ a ∈ (d.removeFailed failed).2,
        ∃ coordinator, ∃ m ∈ failed, a = .requestRemoval coordinator m "failed final check") ∨
      ∃ coordinator, d.view.coordinatorWithout failed = some coordinator ∧
        coordinator.same d.self = true ∧ d.removeFailed failed =
          (d.install (d.view.successor d.self [] [] failed),
            [.installView (d.view.successor d.self [] [] failed)]) := by
  unfold removeFailed
  split
  · exact Or.inl ⟨rfl, by simp⟩
  · rename_i coordinator elected
    split
    · rename_i own
      exact Or.inr ⟨coordinator, elected, own, rfl⟩
    · refine Or.inl ⟨rfl, ?_⟩
      intro a member
      obtain ⟨m, failing, rfl⟩ := List.mem_map.mp member
      exact ⟨coordinator, m, failing, rfl⟩

/-- Concluding is quiet, or else removes all those whose final check failed. -/
theorem conclude_cases (d : Detector) :
    Quiet d d.conclude ∨ ∃ e : Detector, e.self = d.self ∧ e.view = d.view ∧ e.health = d.health ∧
      d.conclude = e.removeFailed (d.membersIn [.removed]) := by
  cases none : (d.membersIn [.removed]).isEmpty with
  | true =>
    have same : d.conclude = (d, []) := by simp only [conclude, none, if_true]
    exact Or.inl (same ▸ .refl d)
  | false =>
    cases detection : d.settings.partitionDetection with
    | false =>
      refine Or.inr ⟨d, rfl, rfl, rfl, ?_⟩
      simp only [conclude, none, detection, Bool.false_eq_true, if_false]
    | true =>
      cases lost : (d.policy.assess d.view d.unreachable).partitioned with
      | false =>
        refine Or.inr ⟨{ d with partitioned := false }, rfl, rfl, rfl, ?_⟩
        simp only [conclude, none, detection, lost, Bool.false_eq_true, if_false, if_true]
      | true =>
        have same : d.conclude = ({ d.unreachable.foldl resuspect d with partitioned := true },
            (if d.partitioned then [] else [.partitionDetected d.unreachable
              (d.policy.assess d.view d.unreachable).lost
              (d.policy.assess d.view d.unreachable).total]) ++ []) := by
          simp only [conclude, none, detection, lost, Bool.false_eq_true, if_false, if_true,
            List.append_nil]
        have flagged : Quiet (d.unreachable.foldl resuspect d)
            ({ d.unreachable.foldl resuspect d with partitioned := true }, []) :=
          .of_same_health rfl rfl rfl
        have declared := (resuspectAll_quiet d d.unreachable).trans flagged
        refine Or.inl (same ▸ declared.announce _ ?_)
        intro a member
        split at member <;> simp_all [Action.isRemoval]

/-- What the failure of a member's final check does first. -/
def markFailed (d : Detector) (m : Member) (h : Health) : Detector :=
  (d.disarm (h.finalCheck.toList.map (·.timer))).update m
    fun h => { h with finalCheck := none, state := .removed }

theorem get?_markFailed {d : Detector} {m k : Member} {h new : Health}
    (known : (d.markFailed m h).health.get? k = some new) :
    m.same k = true ∧ (d.health.get? k).isSome = true ∧ new.state = .removed ∨
      d.health.get? k = some new := by
  unfold markFailed at known
  rw [get?_mark] at known
  split at known
  · rename_i alike
    obtain ⟨old, found, rfl⟩ := Option.map_eq_some_iff.mp known
    have found : d.health.get? k = some old := found
    exact Or.inl ⟨by rw [Member.same_comm]; exact alike, by simp [found], rfl⟩
  · exact Or.inr known

/-- A failed final check that nobody waits for any more does nothing; the one that is waited for
marks its member and concludes. -/
theorem onFinalCheckFailed_cases (d : Detector) (m : Member) (request : UInt64) :
    d.onFinalCheckFailed m request = (d, []) ∨
      ∃ h o, d.health.get? m = some h ∧ h.state = .finalCheck ∧ h.finalCheck = some o ∧
        o.request = request ∧ d.onFinalCheckFailed m request = (d.markFailed m h).conclude := by
  unfold onFinalCheckFailed
  cases known : d.health.get? m with
  | none => exact Or.inl rfl
  | some h =>
    cases waited : h.state == .finalCheck && awaits h.finalCheck request with
    | false => exact Or.inl (by simp [waited])
    | true =>
      obtain ⟨state, waits⟩ := Bool.and_eq_true_iff.mp waited
      obtain ⟨o, checked, same⟩ := (awaits_iff _ _).mp waits
      refine Or.inr ⟨h, o, rfl, by simpa using state, checked, same, ?_⟩
      simp only [waited, if_true]
      rfl

end Cohort.Detector
