import Cohort.Proofs.Health.Entries

/-! The books of a detector balance. It follows everybody else in its view, a member is under a final
check just while the answer to one is waited for, and the schedule agrees with what the detector holds.
Every piece of the detector's work keeps its books in balance, as far as there are numbers for the
requests that it sends. -/

namespace Cohort.Detector

/-! ### Balance -/

/-- A member is under a final check just while its answer is waited for, and owes the answer to a
heartbeat only while it is in no such danger. -/
structure Health.Sound (h : Health) : Prop where
  checked : h.state = .finalCheck ↔ h.finalCheck.isSome = true
  beaten : h.heartbeat.isSome = true → h.state = .alive ∨ h.state = .suspected

/-- The books of a detector balance, with `queue` still to be handled and numbers left for `room`
requests. -/
structure Balanced (d : Detector) (queue : List Expiry) (room : Nat) : Prop where
  ordered : d.health.Ordered
  tracked : ∀ k, (d.health.get? k).isSome = true ↔ d.view.contains k = true ∧ d.self.same k = false
  sound : ∀ k h, d.health.get? k = some h → h.Sound
  ticks : d.tick.isSome = true
  ledger : Ledger d.timers d.held queue d.nextRequest.toNat
  fits : d.nextRequest.toNat + room < UInt64.size

/-- How many requests some actions send. -/
def requests (actions : List Action) : Nat :=
  actions.countP fun
    | .sendHeartbeat _ _ | .sendFinalCheck _ _ => true
    | _ => false

@[simp] theorem requests_append (a b : List Action) : requests (a ++ b) = requests a + requests b :=
  List.countP_append

/-- One more heartbeat without an answer. -/
def Health.miss (h : Health) : Health :=
  { h with
    heartbeat := none
    missed := h.missed + 1
    state := if h.state == .alive then .suspected else h.state }

theorem onHeartbeatTimeout_cases (d : Detector) (m : Member) (request : UInt64) :
    (∀ h, d.health.get? m = some h → awaits h.heartbeat request = false) ∧
        d.onHeartbeatTimeout m request = (d, []) ∨
      ∃ h o announced, d.health.get? m = some h ∧ h.heartbeat = some o ∧ o.request = request ∧
        d.onHeartbeatTimeout m request = (((d.update m Health.miss).checkThreshold m).1,
          announced ++ ((d.update m Health.miss).checkThreshold m).2) := by
  unfold onHeartbeatTimeout
  cases known : d.health.get? m with
  | none => exact Or.inl ⟨by simp, rfl⟩
  | some h =>
    cases waits : awaits h.heartbeat request with
    | false => exact Or.inl ⟨by simp [waits], by simp [waits]⟩
    | true =>
      obtain ⟨o, beats, asked⟩ := (awaits_iff _ _).mp waits
      refine Or.inr ⟨h, o, if h.state == .alive then [.broadcastSuspect m "heartbeat timed out"] else [],
        rfl, beats, asked, ?_⟩
      simp only [waits, Bool.not_true, Bool.false_eq_true, if_false]
      rfl

namespace Balanced

variable {d e : Detector} {m : Member} {h : Health} {queue : List Expiry} {room : Nat}

theorem less (balanced : d.Balanced queue room) {fewer : Nat} (le : fewer ≤ room) :
    d.Balanced queue fewer :=
  { balanced with fits := Nat.lt_of_le_of_lt (Nat.add_le_add_left le _) balanced.fits }

/-- An event that nobody waits for changes nothing. -/
theorem discard {p : Expiry} (balanced : d.Balanced (p :: queue) room)
    (unheld : p ∉ d.held.map (·.2)) : d.Balanced queue room :=
  { balanced with ledger := (balanced.ledger.discard unheld).1 }

theorem held_split (balanced : d.Balanced queue room) (known : d.health.get? m = some h) :
    ∃ others, d.held.Perm (h.held m.identity ++ others) ∧
      ∀ (e : Detector) f, e.tick = d.tick → e.health = d.health.update m f →
        ((f h).held m.identity ++ others).Perm e.held := by
  obtain ⟨others, before, after⟩ := Table.held_split balanced.ordered known
  refine ⟨d.tick.toList.map (·, .round) ++ others, ?_, fun e f tick health => ?_⟩
  · exact (before.append_left _).trans (List.perm_append_comm_assoc _ _ _)
  · unfold Detector.held
    rw [tick, health]
    exact (((after f).append_left _).trans (List.perm_append_comm_assoc _ _ _)).symm

/-- When only one member's health changes, it is enough to look at that one, and at the schedule. -/
theorem replace {now : List Expiry} {left : Nat} (balanced : d.Balanced queue room)
    (known : d.health.get? m = some h) (f : Health → Health) (self : e.self = d.self)
    (view : e.view = d.view) (tick : e.tick = d.tick) (health : e.health = d.health.update m f)
    (sound : (f h).Sound) (ledger : Ledger e.timers e.held now e.nextRequest.toNat)
    (fits : e.nextRequest.toNat + left < UInt64.size) : e.Balanced now left where
  ordered := ordered_of_keys (health ▸ keys_update d.health m f) balanced.ordered
  tracked k := by
    rw [health, self, view, Table.get?_update, ← balanced.tracked k]
    split <;> simp
  sound k found here := by
    rw [health, Table.get?_update] at here
    split at here
    · rename_i alike
      rw [Table.get?_congr alike, known] at here
      cases here
      exact sound
    · exact balanced.sound k found here
  ticks := tick ▸ balanced.ticks
  ledger := ledger
  fits := fits

/-- Some of a member's requests are given up, and nothing else becomes of its requests. -/
theorem settle (balanced : d.Balanced queue room) (known : d.health.get? m = some h)
    (f : Health → Health) (lost kept : List (Nat × Expiry))
    (before : (h.held m.identity).Perm (lost ++ kept)) (after : (f h).held m.identity = kept)
    (sound : (f h).Sound) :
    ((d.disarm (lost.map (·.1))).update m f).Balanced queue room := by
  obtain ⟨others, split, joined⟩ := balanced.held_split known
  have ledger : Ledger d.timers (lost ++ (kept ++ others)) queue d.nextRequest.toNat := by
    refine balanced.ledger.perm (split.trans ?_)
    rw [← List.append_assoc]
    exact before.append_right others
  refine balanced.replace known f rfl rfl rfl rfl sound ?_ balanced.fits
  refine ledger.cancelEach.perm ?_
  rw [← after]
  exact joined ((d.disarm _).update m f) f rfl rfl

/-- A change of health that leaves the requests as they are. -/
theorem mark (balanced : d.Balanced queue room) (known : d.health.get? m = some h)
    (f : Health → Health) (same : (f h).held m.identity = h.held m.identity) (sound : (f h).Sound) :
    (d.update m f).Balanced queue room :=
  balanced.settle known f [] _ (.refl _) same sound

/-! ### Requests -/

theorem toNat_next {next : UInt64} {room : Nat} (fits : next.toNat + (room + 1) < UInt64.size) :
    (next + 1).toNat = next.toNat + 1 := by
  simp only [UInt64.size] at fits
  rw [UInt64.toNat_add, UInt64.toNat_one]
  omega

/-- Giving up a member's requests and changing its health is one change. -/
theorem cancelRequests_update (known : d.health.get? m = some h) (f : Health → Health) :
    (d.cancelRequests m).update m f =
      (d.disarm h.timers).update m (f ∘ Health.withoutRequests) := by
  simp only [cancelRequests, known, update, Table.update_update]

theorem giveUp (balanced : d.Balanced queue room) (known : d.health.get? m = some h)
    (f : Health → Health) (nothing : (f h.withoutRequests).held m.identity = [])
    (sound : (f h.withoutRequests).Sound) : ((d.cancelRequests m).update m f).Balanced queue room := by
  rw [cancelRequests_update known, h.timers_eq m.identity]
  exact balanced.settle known _ _ [] (by rw [List.append_nil]) nothing sound

/-- The next request's timer is armed, and gets the first entry. -/
theorem arm (balanced : d.Balanced queue (room + 1)) (delay : Span) (event : Event) {p : Expiry}
    (purpose : event.expiry? = some p) (new : ¬ p.Below d.nextRequest.toNat)
    (numbered : p.Below (d.nextRequest.toNat + 1)) :
    Ledger (d.timers.arm delay event).1 ((d.timers.nextId, p) :: d.held) queue
      (d.nextRequest + 1).toNat := by
  obtain ⟨unheld, quiet⟩ := balanced.ledger.fresh new
  rw [toNat_next balanced.fits]
  exact (balanced.ledger.mono (Nat.le_succ _)).arm delay event purpose unheld quiet numbered

theorem fits_next (balanced : d.Balanced queue (room + 1)) :
    (d.nextRequest + 1).toNat + room < UInt64.size := by
  have fits := balanced.fits
  rw [toNat_next balanced.fits]
  omega

theorem beat (balanced : d.Balanced queue (room + 1)) (known : d.health.get? m = some h)
    (idle : h.heartbeat = none) (well : h.state = .alive ∨ h.state = .suspected) :
    (d.beat m).1.Balanced queue room := by
  have ledger := balanced.arm d.settings.memberTimeout
    (.heartbeatTimeout m d.nextRequest) rfl (Nat.lt_irrefl _) (Nat.lt_succ_self _)
  obtain ⟨others, split, joined⟩ := balanced.held_split known
  let f (h : Health) : Health := { h with heartbeat := some ⟨d.nextRequest, d.timers.nextId⟩ }
  have entries : (f h).held m.identity =
      (d.timers.nextId, .heartbeat m.identity d.nextRequest) :: h.held m.identity := by
    simp [f, Health.held, idle]
  have sound := balanced.sound m h known
  refine balanced.replace known f rfl rfl rfl rfl ⟨sound.checked, fun _ => well⟩ ?_ balanced.fits_next
  refine (ledger.perm (split.cons _)).perm ?_
  rw [← List.cons_append, ← entries]
  exact joined (d.beat m).1 f rfl rfl

theorem beginFinalCheck (balanced : d.Balanced queue (room + 1)) (known : d.health.get? m = some h) :
    (d.beginFinalCheck m).1.Balanced queue room := by
  have ledger := balanced.arm d.settings.finalCheckTimeout
    (.finalCheckTimeout m d.nextRequest) rfl (Nat.lt_irrefl _) (Nat.lt_succ_self _)
  obtain ⟨others, split, joined⟩ := balanced.held_split known
  let f (h : Health) : Health :=
    { h.withoutRequests with
      state := .finalCheck, finalCheck := some ⟨d.nextRequest, d.timers.nextId⟩ }
  have begun : (d.beginFinalCheck m).1 =
      ((d.request.1.arm d.settings.finalCheckTimeout (.finalCheckTimeout m d.nextRequest)).1.disarm
        h.timers).update m f :=
    cancelRequests_update
      (d := (d.request.1.arm d.settings.finalCheckTimeout (.finalCheckTimeout m d.nextRequest)).1)
      known fun h => { h with
        state := .finalCheck, finalCheck := some ⟨d.nextRequest, d.timers.nextId⟩ }
  have sound : (f h).Sound := ⟨by simp [f], by simp [f, Health.withoutRequests]⟩
  -- the new entry goes behind those of the requests that are given up
  have given := (ledger.perm (split.cons _)).perm
    (List.perm_append_comm_assoc [_] (h.held m.identity) others)
  rw [begun]
  refine balanced.replace known f rfl rfl rfl rfl sound ?_ balanced.fits_next
  rw [h.timers_eq m.identity]
  exact given.cancelEach.perm (joined _ f rfl rfl)

theorem checkThreshold (balanced : d.Balanced queue (room + requests (d.checkThreshold m).2)) :
    (d.checkThreshold m).1.Balanced queue room := by
  unfold Detector.checkThreshold at balanced ⊢
  cases known : d.health.get? m with
  | none => exact balanced.less (Nat.le_add_right _ _)
  | some h =>
    simp only [known] at balanced ⊢
    split
    · rename_i reached
      rw [if_pos reached] at balanced
      exact balanced.beginFinalCheck known
    · exact balanced.less (Nat.le_add_right _ _)

/-! ### Rounds -/

theorem scheduleTick (balanced : d.Balanced (.round :: queue) room) (delay : Span) :
    (d.scheduleTick delay).Balanced queue room := by
  obtain ⟨id, ticks⟩ := Option.isSome_iff_exists.mp balanced.ticks
  have entry : d.held = (id, .round) :: d.health.held := by
    unfold Detector.held
    rw [ticks]
    rfl
  have ledger : Ledger d.timers ((id, .round) :: d.health.held) (.round :: queue) d.nextRequest.toNat :=
    entry ▸ balanced.ledger
  have alone : Expiry.round ∉ d.health.held.map (·.2) := (List.nodup_cons.mp ledger.purposes).1
  obtain ⟨settled, quiet⟩ := ledger.cancel.discard alone
  refine ⟨balanced.ordered, balanced.tracked, balanced.sound, rfl, ?_, balanced.fits⟩
  unfold Detector.scheduleTick
  rw [ticks]
  exact settled.arm delay .heartbeatTick rfl alone quiet trivial

theorem beatAll {members : List Member} (apart : members.Pairwise fun a b => a.same b = false)
    (wanted : ∀ m ∈ members, ∃ h, d.health.get? m = some h ∧ wantsHeartbeat h = true)
    (balanced : d.Balanced queue (room + requests (d.beatAll members).2)) :
    (d.beatAll members).1.Balanced queue room := by
  induction members generalizing d with
  | nil => exact balanced
  | cons m rest ih =>
    obtain ⟨others, apart⟩ := List.pairwise_cons.mp apart
    obtain ⟨h, known, wants⟩ := wanted m List.mem_cons_self
    obtain ⟨well, idle⟩ := Bool.and_eq_true_iff.mp wants
    have more : requests (d.beatAll (m :: rest)).2 = requests ((d.beat m).1.beatAll rest).2 + 1 :=
      List.countP_cons_of_pos rfl
    rw [more, ← Nat.add_assoc] at balanced
    refine ih apart (fun x member => ?_) (balanced.beat known (by simpa using idle) (by simpa using well))
    obtain ⟨found, here, willing⟩ := wanted x (List.mem_cons_of_mem m member)
    refine ⟨found, ?_, willing⟩
    refine (get?_mark d.request.1 m x _).trans ?_
    rw [if_neg (by rw [Member.same_comm, others x member]; decide)]
    exact here

theorem onTick (balanced : d.Balanced (.round :: queue) (room + requests d.onTick.2)) :
    d.onTick.1.Balanced queue room := by
  refine scheduleTick (beatAll (addressees_apart balanced.ordered) (fun m member => ?_) balanced) _
  obtain ⟨h, there, wants⟩ := (mem_addressees d m).mp member
  exact ⟨h, Table.get?_of_mem balanced.ordered there, wants⟩

/-! ### Silence -/

theorem heartbeat_unheld (balanced : d.Balanced queue room) (m : Member) (request : UInt64)
    (idle : ∀ h, d.health.get? m = some h → awaits h.heartbeat request = false) :
    .heartbeat m.identity request ∉ d.held.map (·.2) := by
  intro member
  have entry : .heartbeat m.identity request ∈ d.health.held.map (·.2) := by
    simpa [Detector.held] using member
  obtain ⟨h, known, waits⟩ := Table.awaits_of_heartbeat balanced.ordered entry
  rw [idle h known] at waits
  contradiction

theorem finalCheck_unheld (balanced : d.Balanced queue room) (m : Member) (request : UInt64)
    (idle : ∀ h, d.health.get? m = some h → awaits h.finalCheck request = false) :
    .finalCheck m.identity request ∉ d.held.map (·.2) := by
  intro member
  have entry : .finalCheck m.identity request ∈ d.health.held.map (·.2) := by
    simpa [Detector.held] using member
  obtain ⟨h, known, waits⟩ := Table.awaits_of_finalCheck balanced.ordered entry
  rw [idle h known] at waits
  contradiction

/-- A heartbeat's time is up: nobody waits for the answer any more, or the member has missed it. -/
theorem onHeartbeatTimeout {request : UInt64}
    (balanced : d.Balanced (.heartbeat m.identity request :: queue)
      (room + requests (d.onHeartbeatTimeout m request).2)) :
    (d.onHeartbeatTimeout m request).1.Balanced queue room := by
  rcases onHeartbeatTimeout_cases d m request with
    ⟨idle, same⟩ | ⟨h, o, announced, known, beats, asked, same⟩ <;> rw [same] at balanced ⊢
  · exact (balanced.discard (balanced.heartbeat_unheld m request idle)).less (Nat.le_add_right _ _)
  · have sound := balanced.sound m h known
    have missed : h.miss.Sound := by
      refine ⟨?_, by simp [Health.miss]⟩
      have checked := sound.checked
      rcases sound.beaten (by simp [beats]) with state | state <;>
        simp [Health.miss, state] at checked ⊢ <;> exact checked
    obtain ⟨others, split, joined⟩ := balanced.held_split known
    have entries : h.held m.identity =
        (o.timer, .heartbeat m.identity request) :: h.miss.held m.identity := by
      simp [Health.held, Health.miss, beats, asked]
    rw [entries] at split
    have struck := (balanced.ledger.perm split).strike List.mem_cons_self
    have marked := balanced.replace (e := d.update m Health.miss) known Health.miss rfl rfl rfl rfl
      missed (struck.perm (joined (d.update m Health.miss) Health.miss rfl rfl)) balanced.fits
    have unheld := marked.heartbeat_unheld m request fun new here => by
      rw [get?_mark, if_pos (Member.same_refl m), known] at here
      cases here
      rfl
    rw [requests_append] at marked
    exact ((marked.discard unheld).less (by omega)).checkThreshold

/-! ### Views -/

theorem install (balanced : d.Balanced queue room) (view : View) :
    (d.install view).Balanced queue room := by
  by_cases older : view.id < d.view.id
  · rw [install_older older]
    exact balanced
  · have byIdentity : ∀ a b : Member, a.same b = true → view.contains a = view.contains b :=
      fun a b alike => View.contains_congr alike view
    have fields := health_install older
    refine ⟨ordered_install balanced.ordered view, fun k => ?_, fun k h known => ?_, ?_, ?_, ?_⟩
    · rw [fields, install_view older, install_self, isSome_get?_track,
        Table.get?_filter d.health view.contains k byIdentity]
      have before := balanced.tracked k
      cases present : view.contains k with
      | false => simp
      | true => simp only [if_true, before, true_and, or_iff_right_iff_imp]; exact And.right
    · rcases (get?_install older known).2 with kept | ⟨-, rfl⟩
      · exact balanced.sound k h kept
      · exact ⟨by decide, by simp⟩
    · simp only [Detector.install, older, if_false]
      exact balanced.ticks
    · have split := ((Table.held_partition d.health (view.contains ·)).append_left
        (d.tick.toList.map (·, .round))).trans (List.perm_append_comm_assoc _ _ _)
      have cancelled := (balanced.ledger.perm split).cancelEach
      rw [← Table.timers_eq] at cancelled
      simp only [Detector.install, older, if_false, Detector.held, held_track]
      exact cancelled
    · simp only [Detector.install, older, if_false]
      exact balanced.fits

/-! ### Failed checks -/

theorem resuspect (balanced : d.Balanced queue room) (m : Member) :
    (d.resuspect m).Balanced queue room := by
  unfold Detector.resuspect
  cases known : d.health.get? m with
  | none =>
    have same : d.cancelRequests m = d := by simp only [cancelRequests, known]
    rw [same, update, Table.update_of_none known]
    exact balanced
  | some h => exact balanced.giveUp known _ rfl ⟨by simp [Health.withoutRequests], fun _ => Or.inr rfl⟩

theorem resuspectAll (balanced : d.Balanced queue room) (members : List Member) :
    (members.foldl Detector.resuspect d).Balanced queue room := by
  induction members generalizing d with
  | nil => exact balanced
  | cons m rest ih => exact ih (balanced.resuspect m)

/-- Whether a partition is declared is not in the books. -/
theorem flag (balanced : d.Balanced queue room) (partitioned : Bool) :
    Balanced { d with partitioned := partitioned } queue room :=
  ⟨balanced.ordered, balanced.tracked, balanced.sound, balanced.ticks, balanced.ledger, balanced.fits⟩

theorem conclude (balanced : d.Balanced queue room) : d.conclude.1.Balanced queue room := by
  rcases conclude_verdict d with ⟨-, same⟩ | ⟨-, -, same⟩ | ⟨-, -, same⟩ <;> rw [same]
  · exact balanced
  · exact (balanced.resuspectAll d.unreachable).flag true
  · have undivided : d.undivided.Balanced queue room := balanced.flag _
    rcases removeFailed_cases d.undivided (d.membersIn [.removed]) with
      ⟨unchanged, -⟩ | ⟨_, -, -, installed⟩
    · rw [unchanged]
      exact undivided
    · rw [installed]
      exact undivided.install _

theorem markFailed (balanced : d.Balanced queue room) (known : d.health.get? m = some h)
    (state : h.state = .finalCheck) : (d.markFailed m h).Balanced queue room := by
  have idle : h.heartbeat = none := by
    refine Option.not_isSome_iff_eq_none.mp fun beats => ?_
    rcases (balanced.sound m h known).beaten beats with other | other <;> simp [state] at other
  have entries : h.held m.identity =
      h.finalCheck.toList.map fun o => (o.timer, .finalCheck m.identity o.request) := by
    simp [Health.held, idle]
  have timers : h.finalCheck.toList.map (·.timer) = (h.held m.identity).map (·.1) := by
    rw [entries, List.map_map]
    rfl
  unfold Detector.markFailed
  rw [timers]
  refine balanced.settle known _ _ [] (by rw [List.append_nil]) ?_ ⟨by simp, ?_⟩
  · simp [Health.held, idle]
  · simp [idle]

/-- A final check could not be sent. -/
theorem onFinalCheckFailed (balanced : d.Balanced queue room) (m : Member) (request : UInt64) :
    (d.onFinalCheckFailed m request).1.Balanced queue room := by
  rcases onFinalCheckFailed_cases d m request with same | ⟨h, o, known, state, -, -, same⟩ <;> rw [same]
  · exact balanced
  · exact (balanced.markFailed known state).conclude

/-- A final check's time is up: nobody waits for the answer any more, or the member has failed. -/
theorem onFinalCheckTimeout {request : UInt64}
    (balanced : d.Balanced (.finalCheck m.identity request :: queue) room) :
    (d.onFinalCheckFailed m request).1.Balanced queue room := by
  by_cases waited : ∃ h, d.health.get? m = some h ∧ awaits h.finalCheck request = true
  · obtain ⟨h, known, waits⟩ := waited
    obtain ⟨o, check, -⟩ := (awaits_iff _ _).mp waits
    have state : h.state = .finalCheck := (balanced.sound m h known).checked.mpr (by simp [check])
    have failed : d.onFinalCheckFailed m request = (d.markFailed m h).conclude := by
      simp only [Detector.onFinalCheckFailed, known, state, waits, beq_self_eq_true, Bool.and_self,
        if_true]
      rfl
    have marked := balanced.markFailed known state
    have unheld := marked.finalCheck_unheld m request fun new here => by
      unfold Detector.markFailed at here
      rw [get?_mark, if_pos (Member.same_refl m)] at here
      obtain ⟨_, -, rfl⟩ := Option.map_eq_some_iff.mp here
      rfl
    rw [failed]
    exact (marked.discard unheld).conclude
  · have idle : ∀ h, d.health.get? m = some h → awaits h.finalCheck request = false := fun h known =>
      Bool.eq_false_iff.mpr fun waits => waited ⟨h, known, waits⟩
    exact (balanced.discard (balanced.finalCheck_unheld m request idle)).onFinalCheckFailed m request

/-! ### Answers and accusations -/

theorem settleHeartbeat (balanced : d.Balanced queue room) (known : d.health.get? m = some h)
    (answered : Bool) : (d.settleHeartbeat m h answered).Balanced queue room ∧
      (d.settleHeartbeat m h answered).health.get? m =
        some { h with heartbeat := if answered then none else h.heartbeat } := by
  have sound := balanced.sound m h known
  unfold Detector.settleHeartbeat
  cases answered with
  | false => exact ⟨balanced, known⟩
  | true =>
    have timers : h.heartbeat.toList.map (·.timer) =
        (h.heartbeat.toList.map fun o => (o.timer, Expiry.heartbeat m.identity o.request)).map (·.1) := by
      rw [List.map_map]
      rfl
    refine ⟨?_, ?_⟩
    · rw [if_pos rfl, timers]
      exact balanced.settle known _ _ _ (.refl _) rfl ⟨sound.checked, by simp⟩
    · rw [if_pos rfl, get?_mark, if_pos (Member.same_refl m)]
      exact congrArg (Option.map _) known

theorem checkHealed (balanced : d.Balanced queue room) : d.checkHealed.Balanced queue room := by
  unfold Detector.checkHealed
  split
  · exact balanced.flag false
  · exact balanced

theorem onResponse (balanced : d.Balanced queue room) (source : Member) (request : UInt64)
    (final : Bool) : (d.onResponse source request final).Balanced queue room := by
  rcases onResponse_cases d source request final with
    ⟨-, same⟩ | ⟨h, known, ⟨-, same⟩ | ⟨alive, same⟩ | same⟩ <;> rw [same]
  · exact balanced
  · exact balanced
  · obtain ⟨settled, here⟩ := balanced.settleHeartbeat known (!final && awaits h.heartbeat request)
    have sound := settled.sound source _ here
    exact settled.mark here _ rfl ⟨sound.checked, sound.beaten⟩
  · obtain ⟨settled, here⟩ := balanced.settleHeartbeat known (!final && awaits h.heartbeat request)
    have timers : h.finalCheck.toList.map (·.timer) = (h.finalCheck.toList.map fun o =>
        (o.timer, Expiry.finalCheck source.identity o.request)).map (·.1) := by
      rw [List.map_map]
      rfl
    rw [timers]
    refine (settled.settle here _ _ _ List.perm_append_comm ?_ ⟨by simp, fun _ => Or.inl rfl⟩).checkHealed
    simp [Health.held]

/-- A member that is in no danger becomes suspected. -/
theorem suspect (balanced : d.Balanced queue room) (known : d.health.get? m = some h)
    (well : h.state = .alive ∨ h.state = .suspected) (reporter : Member) :
    (d.update m fun h => { h.report reporter with state := .suspected }).Balanced queue room := by
  refine balanced.mark known _ (h.held_report reporter m.identity) ⟨?_, fun _ => Or.inr rfl⟩
  have checked := (balanced.sound m h known).checked
  rw [(report_gentle reporter h).2, ← checked]
  rcases well with state | state <;> simp [state]

theorem onSuspect {reporter accused : Member}
    (balanced : d.Balanced queue (room + requests (d.onSuspect reporter accused).2)) :
    (d.onSuspect reporter accused).1.Balanced queue room := by
  unfold Detector.onSuspect at balanced ⊢
  split
  · exact balanced.less (Nat.le_add_right _ _)
  · rename_i other
    rw [if_neg other] at balanced
    cases known : d.health.get? accused with
    | none => exact balanced.less (Nat.le_add_right _ _)
    | some h =>
      simp only [known] at balanced ⊢
      split
      · exact balanced.less (Nat.le_add_right _ _)
      · rename_i calm
        rw [if_neg calm] at balanced
        have well : h.state = .alive ∨ h.state = .suspected := by
          cases state : h.state <;> simp_all
        exact (balanced.suspect known well reporter).checkThreshold

theorem onSuspects {reporter : Member} {suspects : List Suspicion}
    (balanced : d.Balanced queue (room + requests (d.onSuspects reporter suspects).2)) :
    (d.onSuspects reporter suspects).1.Balanced queue room := by
  induction suspects generalizing d with
  | nil => exact balanced
  | cons s rest ih =>
    have parts : requests (d.onSuspects reporter (s :: rest)).2 =
        requests (d.onSuspect reporter s.suspect).2 +
          requests ((d.onSuspect reporter s.suspect).1.onSuspects reporter rest).2 :=
      requests_append _ _
    have first : (d.onSuspect reporter s.suspect).1.Balanced queue
        (room + requests ((d.onSuspect reporter s.suspect).1.onSuspects reporter rest).2) :=
      onSuspect (balanced.less (by omega))
    exact ih first

theorem onRemoveRequested {requester accused : Member}
    (balanced : d.Balanced queue (room + requests (d.onRemoveRequested requester accused).2)) :
    (d.onRemoveRequested requester accused).1.Balanced queue room := by
  unfold Detector.onRemoveRequested at balanced ⊢
  split
  · exact balanced.less (Nat.le_add_right _ _)
  · rename_i other
    rw [if_neg other] at balanced
    cases known : d.health.get? accused with
    | none => exact balanced.less (Nat.le_add_right _ _)
    | some h =>
      have checked : ∀ well : h.state = .alive ∨ h.state = .suspected,
          d.Balanced queue (room + 1) → ((d.update accused fun h =>
            { h.report requester with state := .suspected }).beginFinalCheck accused).1.Balanced
              queue room := fun well enough =>
        (enough.suspect known well requester).beginFinalCheck
          ((get?_mark d accused accused _).trans (if_pos (Member.same_refl accused)) |>.trans
            (congrArg (Option.map _) known))
      simp only [known] at balanced ⊢
      cases state : h.state with
      | alive =>
        simp only [state] at balanced
        exact checked (Or.inl state) balanced
      | suspected =>
        simp only [state] at balanced
        exact checked (Or.inr state) balanced
      | finalCheck =>
        have sound := balanced.sound accused h known
        obtain ⟨same, check⟩ := report_gentle requester h
        refine (balanced.less (Nat.le_add_right _ _)).mark known _ (h.held_report requester _) ?_
        exact ⟨by rw [same, check, sound.checked], by rw [same, h.heartbeat_report]; exact sound.beaten⟩
      | removed => exact balanced.less (Nat.le_add_right _ _)

/-! ### All events -/

/-- What is no timer's event leaves the queue alone. -/
theorem handle {event : Event} (outer : event.expiry? = none)
    (balanced : d.Balanced queue (room + requests (d.handle event).2)) :
    (d.handle event).1.Balanced queue room := by
  have enough := balanced.less (Nat.le_add_right room _)
  cases event with
  | heartbeatTick | heartbeatTimeout | finalCheckTimeout => cases outer
  | heartbeatResponse source request => exact enough.onResponse source request false
  | suspectReceived reporter suspects => exact balanced.onSuspects
  | finalCheckResponse source request => exact enough.onResponse source request true
  | finalCheckFailed m request => exact enough.onFinalCheckFailed m request
  | removeRequested requester m _ => exact balanced.onRemoveRequested
  | viewInstalled view => exact enough.install view

/-- A timer's event is dealt with. -/
theorem handle_expiry {event : Event} {p : Expiry} (expires : event.expiry? = some p)
    (balanced : d.Balanced (p :: queue) (room + requests (d.handle event).2)) :
    (d.handle event).1.Balanced queue room := by
  cases event <;> cases expires
  case heartbeatTick => exact balanced.onTick
  case heartbeatTimeout m request => exact balanced.onHeartbeatTimeout
  case finalCheckTimeout m request =>
    exact (balanced.less (Nat.le_add_right _ _)).onFinalCheckTimeout

/-- Nothing that the detector armed is left after its end. -/
theorem stop_pending (balanced : d.Balanced queue room) (id : Nat) :
    d.stop.timers.isPending id = false := by
  have all : d.held.Perm (d.held ++ []) := by rw [List.append_nil]
  have ended := (balanced.ledger.perm all).cancelEach
  rw [← slots_eq, slots, List.foldl_append] at ended
  refine Bool.eq_false_iff.mpr fun pending => ?_
  obtain ⟨_, -, -, _, -, none⟩ := ended.held_of_pending pending
  cases none

end Balanced

theorem balanced_start (self : Member) (view : View) (settings : Settings) (policy : LossPolicy)
    (now : UInt64) : (create self view settings policy now.toNat).start.Balanced [] 0 where
  ordered := ordered_create self view settings policy now.toNat
  tracked k := (isSome_get?_track self [] view k).trans (by simp; rfl)
  sound k h known := by
    have known : (track self [] view).get? k = some h := known
    rcases get?_track self view [] k with same | ⟨-, -, healthy⟩
    · rw [same] at known
      cases known
    · rw [healthy] at known
      cases known
      exact ⟨by decide, by simp⟩
  ticks := rfl
  ledger := by
    have empty : (track self [] view).held = [] := held_track self [] view
    have ledger := (Ledger.start 1 now).arm ⟨0⟩ .heartbeatTick rfl
      List.not_mem_nil List.not_mem_nil trivial
    refine ledger.perm ?_
    change List.Perm [_] ([_] ++ (track self [] view).held)
    rw [empty]
    rfl
  fits := (by decide : (1 : UInt64).toNat + 0 < UInt64.size)

end Cohort.Detector
