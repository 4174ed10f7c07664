import Cohort.Proofs.Health.Decline
import Cohort.Proofs.Schedule.Steps

/-! What a detector arms for later. Views come to it only from outside: none of its timers brings one
when it runs out. -/

namespace Cohort.Detector

/-- The view that an event for the detector brings. -/
def Event.view? : Event → Option View
  | .viewInstalled view => some view
  | _ => none

/-- The views that some events for the detector bring, in order. -/
def news (events : List Event) : List View := events.filterMap Event.view?

@[simp] theorem news_append (a b : List Event) : news (a ++ b) = news a ++ news b :=
  List.filterMap_append

/-- No timer brings a view. -/
def Uninformed (d : Detector) : Prop := ∀ t ∈ d.timers.stored, t.task.view? = none

/-- Whatever a detector has armed since it was in an earlier state, it brings no view. -/
def Arms (d e : Detector) : Prop :=
  ∀ t ∈ e.timers.stored, t ∈ d.timers.stored ∨ t.task.view? = none

theorem Uninformed.arms {d e : Detector} (uninformed : d.Uninformed) (arms : Arms d e) :
    e.Uninformed := fun t member => (arms t member).elim (uninformed t) id

namespace Arms

variable {d e f : Detector}

theorem of_stored (same : e.timers.stored = d.timers.stored) : Arms d e :=
  fun _ member => Or.inl (same ▸ member)

theorem refl (d : Detector) : Arms d d := of_stored rfl

theorem trans (first : Arms d e) (second : Arms e f) : Arms d f :=
  fun t member => (second t member).elim (first t) Or.inr

end Arms

section
variable (d : Detector)

theorem arm_arms (delay : Span) {event : Event} (plain : event.view? = none) :
    Arms d (d.arm delay event).1 := by
  intro t member
  rcases List.mem_cons.mp member with rfl | old
  · exact Or.inr plain
  · exact Or.inl old

theorem disarm_arms (ids : List Nat) : Arms d (d.disarm ids) := by
  refine .of_stored ?_
  change (ids.foldl (fun timers id => (timers.cancel id).1) d.timers).stored = _
  generalize d.timers = timers
  induction ids generalizing timers with
  | nil => rfl
  | cons id rest ih => exact (ih _).trans (Schedule.stored_settle timers id .cancelled)

theorem update_arms (m : Member) (f : Health → Health) : Arms d (d.update m f) := .refl d

theorem cancelRequests_arms (m : Member) : Arms d (d.cancelRequests m) := by
  unfold cancelRequests
  split
  · exact .refl d
  · exact d.disarm_arms _

theorem scheduleTick_arms (delay : Span) : Arms d (d.scheduleTick delay) :=
  (d.disarm_arms _).trans (arm_arms _ delay rfl)

/-! ### The handlers -/

theorem install_arms (view : View) : Arms d (d.install view) := by
  unfold install
  split
  · exact .refl d
  · exact d.disarm_arms _

theorem beat_arms (m : Member) : Arms d (d.beat m).1 := arm_arms d.request.1 _ rfl

theorem beatAll_arms (members : List Member) : Arms d (d.beatAll members).1 := by
  induction members generalizing d with
  | nil => exact .refl d
  | cons m rest ih => exact (d.beat_arms m).trans (ih _)

theorem onTick_arms : Arms d d.onTick.1 := (d.beatAll_arms _).trans (scheduleTick_arms _ _)

theorem beginFinalCheck_arms (m : Member) : Arms d (d.beginFinalCheck m).1 :=
  (arm_arms d.request.1 _ rfl).trans (cancelRequests_arms _ m)

theorem checkThreshold_arms (m : Member) : Arms d (d.checkThreshold m).1 := by
  unfold checkThreshold
  split
  · exact .refl d
  · split
    · exact d.beginFinalCheck_arms m
    · exact .refl d

theorem onHeartbeatTimeout_arms (m : Member) (request : UInt64) :
    Arms d (d.onHeartbeatTimeout m request).1 := by
  unfold onHeartbeatTimeout
  split
  · exact .refl d
  · split
    · exact .refl d
    · exact (d.update_arms m _).trans (checkThreshold_arms _ m)

theorem onSuspect_arms (reporter suspect : Member) : Arms d (d.onSuspect reporter suspect).1 := by
  unfold onSuspect
  split
  · exact .refl d
  · split
    · exact .refl d
    · split
      · exact .refl d
      · exact (d.update_arms suspect _).trans (checkThreshold_arms _ suspect)

theorem onSuspects_arms (reporter : Member) (suspects : List Suspicion) :
    Arms d (d.onSuspects reporter suspects).1 := by
  induction suspects generalizing d with
  | nil => exact .refl d
  | cons s rest ih => exact (d.onSuspect_arms reporter s.suspect).trans (ih _)

theorem checkHealed_arms : Arms d d.checkHealed := by
  unfold checkHealed
  split <;> exact .refl d

theorem onResponse_arms (source : Member) (request : UInt64) (final : Bool) :
    Arms d (d.onResponse source request final) := by
  have settles : ∀ h answered, Arms d (d.settleHeartbeat source h answered) := by
    intro h answered
    unfold settleHeartbeat
    split
    · exact d.disarm_arms _
    · exact .refl d
  rcases onResponse_cases d source request final with
    ⟨-, same⟩ | ⟨h, -, ⟨-, same⟩ | ⟨-, same⟩ | same⟩ <;> rw [same]
  · exact .refl d
  · exact .refl d
  · exact (settles h _).trans (update_arms _ source _)
  · refine .trans ?_ (checkHealed_arms _)
    refine .trans ?_ (update_arms _ source _)
    exact (settles h _).trans (disarm_arms _ _)

theorem resuspectAll_arms (members : List Member) : Arms d (members.foldl resuspect d) := by
  induction members generalizing d with
  | nil => exact .refl d
  | cons m rest ih => exact (d.cancelRequests_arms m).trans (ih (d.resuspect m))

theorem removeFailed_arms (failed : List Member) : Arms d (d.removeFailed failed).1 := by
  unfold removeFailed
  split
  · exact .refl d
  · split
    · exact d.install_arms _
    · exact .refl d

theorem conclude_arms : Arms d d.conclude.1 := by
  rcases conclude_verdict d with ⟨-, same⟩ | ⟨-, -, same⟩ | ⟨-, -, same⟩
  · rw [same]
    exact .refl d
  · rw [same]
    exact d.resuspectAll_arms _
  · rw [same]
    exact removeFailed_arms d.undivided _

theorem onFinalCheckFailed_arms (m : Member) (request : UInt64) :
    Arms d (d.onFinalCheckFailed m request).1 := by
  unfold onFinalCheckFailed
  split
  · exact .refl d
  · split
    · exact (d.disarm_arms _).trans (conclude_arms _)
    · exact .refl d

theorem onRemoveRequested_arms (requester m : Member) :
    Arms d (d.onRemoveRequested requester m).1 := by
  unfold onRemoveRequested
  split
  · exact .refl d
  · split
    · exact .refl d
    · split
      · exact (d.update_arms m _).trans (beginFinalCheck_arms _ m)
      · exact (d.update_arms m _).trans (beginFinalCheck_arms _ m)
      · exact d.update_arms m _
      · exact .refl d

theorem handle_arms (event : Event) : Arms d (d.handle event).1 := by
  cases event with
  | heartbeatTick => exact d.onTick_arms
  | heartbeatTimeout m request => exact d.onHeartbeatTimeout_arms m request
  | heartbeatResponse source request => exact d.onResponse_arms source request false
  | suspectReceived reporter suspects => exact d.onSuspects_arms reporter suspects
  | finalCheckTimeout m request => exact d.onFinalCheckFailed_arms m request
  | finalCheckResponse source request => exact d.onResponse_arms source request true
  | finalCheckFailed m request => exact d.onFinalCheckFailed_arms m request
  | removeRequested requester m _ => exact d.onRemoveRequested_arms requester m
  | viewInstalled view => exact d.install_arms view

theorem uninformed_start (self : Member) (view : View) (settings : Settings) (policy : LossPolicy)
    (now : Nat) : (create self view settings policy now).start.Uninformed := by
  refine Uninformed.arms (d := create self view settings policy now) ?_ (scheduleTick_arms _ ⟨0⟩)
  intro t member
  cases member

/-! ### Timers that run out -/

theorem turn_stored {s s' : Schedule Event} {time : Nat} {found : Schedule.Turn Event}
    (turned : s.turn time = (s', found)) :
    (∀ t ∈ s'.stored, t ∈ s.stored) ∧ ∀ t ∈ found.ran, t ∈ s.stored := by
  refine ⟨fun t member => (s.turn_fields time).2.2 t (turned ▸ member), fun t runs => ?_⟩
  rcases s.turn_cases time with
    ⟨moved, -⟩ | ⟨task, rest, gathered, -, ⟨-, moved⟩ | ⟨-, moved⟩⟩ <;> cases turned.symm.trans moved
  · cases runs
  · cases runs
  · rw [List.mem_singleton.mp runs]
    exact (Schedule.mem_gathered gathered).mpr List.mem_cons_self

/-- What a pass over timers runs was in the queues before, and so was what it leaves there. -/
theorem continuePass_stored (time steps count : Nat) (s : Schedule Event) :
    (∀ t ∈ (Schedule.continuePass ring time steps count () s).schedule.stored, t ∈ s.stored) ∧
      ∀ t ∈ (Schedule.continuePass ring time steps count () s).ran, t ∈ s.stored := by
  induction steps generalizing count s with
  | zero => exact ⟨fun _ => id, fun t ran => nomatch ran⟩
  | succ steps ih =>
    unfold Schedule.continuePass
    rcases turned : s.turn time with ⟨s', found⟩
    obtain ⟨kept, ran⟩ := turn_stored turned
    cases found with
    | idle => exact ⟨kept, fun t ran => nomatch ran⟩
    | stale =>
      obtain ⟨later, more⟩ := ih count s'
      exact ⟨fun t member => kept t (later t member), fun t member => kept t (more t member)⟩
    | runs task =>
      obtain ⟨later, more⟩ := ih (count + 1) s'
      refine ⟨fun t member => kept t (later t member), fun t member => ?_⟩
      rcases List.mem_cons.mp member with rfl | rest
      · exact ran _ (List.mem_singleton.mpr rfl)
      · exact kept t (more t rest)

theorem uninformed_expire {d : Detector} (uninformed : d.Uninformed) :
    d.expire.1.Uninformed ∧ news d.expire.2 = [] := by
  obtain ⟨left, ran⟩ := continuePass_stored d.timers.now (d.timers.load (fun _ => 0) + 1) 0 d.timers
  refine ⟨fun t member => uninformed t (left t member), ?_⟩
  refine List.filterMap_eq_nil_iff.mpr fun event member => ?_
  obtain ⟨t, fired, rfl⟩ := List.mem_map.mp member
  exact uninformed t (ran t fired)

end

end Cohort.Detector
