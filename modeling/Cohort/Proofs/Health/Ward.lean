import Mathlib.Data.List.Induction
import Mathlib.Data.List.Perm.Basic
import Cohort.Proofs.Health.Bookkeeping

/-! A detector at work, from its start on. Time passes, timers run out one after the other, and their
events wait until the detector handles them, in whatever order; everything else is reported to it from
outside. However this goes on, the detector's bookkeeping is in order. -/

namespace Cohort.Detector

/-- A detector, and the events of timers that ran out and that it has not handled. -/
structure Ward where
  detector : Detector
  queue : List Event := []

/-! ### Rounds -/

section
variable {d : Detector} {k : Member}

/-- Whoever is asked in a round has a heartbeat to answer, and so has whoever had one. -/
theorem get?_beatAll {members : List Member} {new : Health}
    (known : (d.beatAll members).1.health.get? k = some new) :
    ∃ old, d.health.get? k = some old ∧ new.state = old.state ∧
      (old.heartbeat.isSome = true ∨ k.isIn members = true → new.heartbeat.isSome = true) := by
  induction members generalizing d with
  | nil => exact ⟨new, known, rfl, by simp [Member.isIn]⟩
  | cons m rest ih =>
    obtain ⟨between, here, state, beats⟩ := ih known
    have asked := get?_mark d.request.1 m k fun h =>
      { h with heartbeat := some ⟨d.nextRequest, d.timers.nextId⟩ }
    have isIn : k.isIn (m :: rest) = (k.same m || k.isIn rest) := rfl
    rw [isIn]
    cases alike : k.same m with
    | true =>
      rw [if_pos alike] at asked
      obtain ⟨old, found, rfl⟩ := Option.map_eq_some_iff.mp (asked.symm.trans here)
      exact ⟨old, found, state, fun _ => beats (Or.inl rfl)⟩
    | false =>
      rw [if_neg (by rw [alike]; decide)] at asked
      exact ⟨between, asked.symm.trans here, state, by simpa using beats⟩

/-- After a round everybody who is alive or suspected has a heartbeat to answer. -/
theorem beats_onTick {h : Health} (known : d.onTick.1.health.get? k = some h)
    (well : h.state = .alive ∨ h.state = .suspected) : h.heartbeat.isSome = true := by
  obtain ⟨old, found, state, beats⟩ := get?_beatAll known
  refine beats ((Classical.em _).imp_right fun idle => ?_)
  obtain ⟨⟨key, same⟩, first, rfl⟩ := Option.map_eq_some_iff.mp found
  have named : key.same k = true := by simpa using List.find?_some first
  have wants : wantsHeartbeat same = true := by
    rw [state] at well
    exact Bool.and_eq_true_iff.mpr ⟨by simpa using well, by simpa using idle⟩
  refine (Member.isIn_iff k _).mpr ⟨key, (mem_addressees d key).mpr
    ⟨same, List.mem_of_find?_eq_some first, wants⟩, ?_⟩
  rw [Member.same_comm]
  exact named

end

namespace Ward

inductive Move where
  /-- The clock reads something else. -/
  | clock (now : UInt64)
  | turn (time : Nat)
  | report (event : Event)
  /-- The detector handles one of the events that wait. -/
  | handle (index : Nat)

/-- A detector right after its start. -/
def opened (self : Member) (view : View) (settings : Settings) (policy : LossPolicy) (now : UInt64) :
    Ward where
  detector := (create self view settings policy now.toNat).start

/-- The detector handles an event, after which these others wait. `Detector.request` numbers in 64 bits
and comes round; the bound is the ward's alone, which does not handle an event that leads beyond it. -/
def handled (w : Ward) (event : Event) (queue : List Event) : Ward :=
  let result := w.detector.handle event
  if w.detector.nextRequest.toNat + requests result.2 < UInt64.size then ⟨result.1, queue⟩ else w

def move (w : Ward) : Move → Ward
  | .clock now =>
    { w with detector := { w.detector with timers := { w.detector.timers with now := now.toNat } } }
  | .turn time =>
    let (timers, found) := w.detector.timers.turn time
    { detector := { w.detector with timers := timers }, queue := w.queue ++ found.ran.map (·.task) }
  | .report event => if event.expiry?.isSome then w else w.handled event w.queue
  | .handle index =>
    match w.queue[index]? with
    | none => w
    | some event => w.handled event (w.queue.eraseIdx index)

def after (w : Ward) (moves : List Move) : Ward := moves.foldl move w

theorem after_snoc (w : Ward) (moves : List Move) (x : Move) :
    w.after (moves ++ [x]) = (w.after moves).move x := List.foldl_concat ..

/-- A whole pass over the timers is a run of turns. -/
theorem expire_turns (w : Ward) : ∃ turns : List Move, (∀ x ∈ turns, ∃ time, x = .turn time) ∧
    w.after turns = ⟨w.detector.expire.1, w.queue ++ w.detector.expire.2⟩ := by
  have passes : ∀ steps count time (w : Ward),
      let pass := Schedule.continuePass ring time steps count () w.detector.timers
      ∃ turns : List Move, (∀ x ∈ turns, ∃ time, x = .turn time) ∧
        w.after turns =
          ⟨{ w.detector with timers := pass.schedule }, w.queue ++ pass.ran.map (·.task)⟩ := by
    intro steps
    induction steps with
    | zero => exact fun _ _ w => ⟨[], by simp, by simp [Schedule.continuePass, after]⟩
    | succ steps ih =>
      intro count time w
      rcases turned : w.detector.timers.turn time with ⟨timers, found⟩
      have moved : w.move (.turn time) =
          ⟨{ w.detector with timers := timers }, w.queue ++ found.ran.map (·.task)⟩ := by
        simp only [move, turned]
      unfold Schedule.continuePass
      cases found with
      | idle =>
        refine ⟨[.turn time], by simp, ?_⟩
        simpa [after, turned, Schedule.Turn.ran] using moved
      | stale =>
        obtain ⟨turns, all, same⟩ := ih count time (w.move (.turn time))
        refine ⟨.turn time :: turns, by simpa using all, ?_⟩
        refine (same : (w.move (.turn time)).after turns = _).trans ?_
        simp [moved, turned, Schedule.Turn.ran]
      | runs task =>
        obtain ⟨turns, all, same⟩ := ih (count + 1) time (w.move (.turn time))
        refine ⟨.turn time :: turns, by simpa using all, ?_⟩
        refine (same : (w.move (.turn time)).after turns = _).trans ?_
        simp [moved, turned, Schedule.Turn.ran, ring, Schedule.after]
  exact passes _ 0 _ w

/-- The books balance with what waits to be handled. -/
def Balances (w : Ward) : Prop := w.detector.Balanced (w.queue.filterMap Event.expiry?) 0

theorem balances_handled {w : Ward} {event : Event} {queue : List Event} (balances : w.Balances)
    (dealt : ∀ room, w.detector.Balanced (w.queue.filterMap Event.expiry?)
        (room + requests (w.detector.handle event).2) →
      (w.detector.handle event).1.Balanced (queue.filterMap Event.expiry?) room) :
    (w.handled event queue).Balances := by
  unfold handled
  dsimp only
  split
  · rename_i fits
    exact dealt 0 { balances with fits := by rw [Nat.zero_add]; exact fits }
  · exact balances

theorem balances_move {w : Ward} (balances : w.Balances) (x : Move) : (w.move x).Balances := by
  cases x with
  | clock now => exact { balances with ledger := balances.ledger.clock now }
  | turn time =>
    have turned := balances.ledger.turn time
    unfold Balances
    simp only [move, List.filterMap_append, List.filterMap_map]
    exact { balances with ledger := turned }
  | report event =>
    unfold move
    dsimp only
    split
    · exact balances
    · rename_i outer
      exact balances_handled balances fun room enough =>
        Balanced.handle (Option.not_isSome_iff_eq_none.mp outer) enough
  | handle index =>
    cases found : w.queue[index]? with
    | none =>
      simp only [move, found]
      exact balances
    | some event =>
      simp only [move, found]
      obtain ⟨within, here⟩ := List.getElem?_eq_some_iff.mp found
      have order := List.getElem_cons_eraseIdx_perm within
      rw [here] at order
      have first := (order.filterMap Event.expiry?).symm
      refine balances_handled balances fun room enough => ?_
      have sorted : w.detector.Balanced ((event :: w.queue.eraseIdx index).filterMap Event.expiry?)
          (room + requests (w.detector.handle event).2) :=
        { enough with ledger := enough.ledger.queue_perm first }
      cases expires : event.expiry? with
      | none =>
        rw [List.filterMap_cons_none expires] at sorted
        exact Balanced.handle expires sorted
      | some p =>
        rw [List.filterMap_cons_some expires] at sorted
        exact Balanced.handle_expiry expires sorted

theorem balances_after (self : Member) (view : View) (settings : Settings) (policy : LossPolicy)
    (now : UInt64) (moves : List Move) :
    ((opened self view settings policy now).after moves).Balances := by
  induction moves using List.reverseRecOn with
  | nil => exact balanced_start self view settings policy now
  | append_singleton earlier x ih =>
    rw [after_snoc]
    exact balances_move ih x

/-! ### The books in full -/

def inFlight (w : Ward) : List Event := w.detector.timers.waiting.map (·.task) ++ w.queue

structure Kept (w : Ward) : Prop where
  /-- Just the others in the view are followed. -/
  tracked : ∀ m, (w.detector.health.get? m).isSome = true ↔
    w.detector.view.contains m = true ∧ w.detector.self.same m = false
  /-- Just those in `FINAL_CHECK` have a final check to answer. -/
  checked : ∀ m h, w.detector.health.get? m = some h →
    (h.state = .finalCheck ↔ h.finalCheck.isSome = true)
  /-- Whoever has a heartbeat to answer is alive or suspected. -/
  beaten : ∀ m h, w.detector.health.get? m = some h → h.heartbeat.isSome = true →
    h.state = .alive ∨ h.state = .suspected
  /-- A pending timer is held in one slot, -/
  heldOnce : ∀ id, w.detector.timers.isPending id = true → w.detector.slots.count id = 1
  /-- and for what it will come up as. -/
  entered : ∀ t ∈ w.detector.timers.waiting, ∃ p, t.task.expiry? = some p ∧ (t.id, p) ∈ w.detector.held
  /-- A timer that is held is pending, or else its event waits. -/
  due : ∀ id p, (id, p) ∈ w.detector.held →
    (w.detector.timers.isPending id = true ↔ ¬ ∃ event ∈ w.queue, event.expiry? = some p)
  /-- One round of heartbeats is to come. -/
  round : w.inFlight.count .heartbeatTick = 1
  stopped : ∀ id, w.detector.stop.timers.isPending id = false
  /-- A round leaves nobody out who is alive or suspected. -/
  beats : ∀ m h, (w.detector.handle .heartbeatTick).1.health.get? m = some h →
    h.state = .alive ∨ h.state = .suspected → h.heartbeat.isSome = true

theorem expiry?_eq_round {event : Event} : event.expiry? = some .round ↔ event = .heartbeatTick := by
  cases event <;> simp [Event.expiry?]

theorem round_inFlight {w : Ward} (balances : w.Balances) : w.inFlight.count .heartbeatTick = 1 := by
  obtain ⟨id, ticks⟩ := Option.isSome_iff_exists.mp balances.ticks
  have entry : (id, .round) ∈ w.detector.held := by
    unfold held
    rw [ticks]
    exact List.mem_cons_self
  have ledger := balances.ledger
  have queued : w.queue.count .heartbeatTick = (w.queue.filterMap Event.expiry?).count .round := by
    rw [List.count_filterMap]
    refine List.countP_congr fun event _ => ?_
    rw [beq_iff_eq, beq_iff_eq, expiry?_eq_round]
  have numbered : ∀ t ∈ w.detector.timers.waiting, t.task = .heartbeatTick → t.id = id := by
    intro t there rounds
    obtain ⟨p, purpose, held⟩ := ledger.entered t there
    rw [expiry?_eq_round.mpr rounds] at purpose
    cases purpose
    exact congrArg Prod.fst (List.inj_on_of_nodup_map ledger.purposes held entry rfl)
  unfold inFlight
  rw [List.count_append, queued, List.count, List.countP_map]
  cases pending : w.detector.timers.isPending id with
  | true =>
    have none := (ledger.due id .round entry).mp pending
    obtain ⟨t, there, rfl, -⟩ := ledger.held_of_pending pending
    have rounds := expiry?_eq_round.mp (ledger.purpose_of_waiting there entry)
    have distinct : w.detector.timers.waiting.Nodup :=
      (List.Nodup.of_map _ ledger.coherent.distinct).filter _
    have alone : w.detector.timers.waiting.countP ((· == .heartbeatTick) ∘ (·.task)) =
        w.detector.timers.waiting.count t := by
      refine List.countP_congr fun u other => ?_
      rw [Function.comp_apply, beq_iff_eq, beq_iff_eq]
      constructor
      · intro same
        exact List.inj_on_of_nodup_map ledger.coherent.distinct (Schedule.mem_waiting.mp other).1
          (Schedule.mem_waiting.mp there).1 (numbered u other same)
      · rintro rfl
        exact rounds
    rw [alone, List.count_eq_one_of_mem distinct there, List.count_eq_zero.mpr none]
  | false =>
    have waits : .round ∈ w.queue.filterMap Event.expiry? := by
      by_contra none
      rw [(ledger.due id .round entry).mpr none] at pending
      contradiction
    have none : w.detector.timers.waiting.countP ((· == .heartbeatTick) ∘ (·.task)) = 0 := by
      refine List.countP_eq_zero.mpr fun t there rounds => ?_
      have same := numbered t there (by simpa using rounds)
      rw [← same, (Schedule.mem_waiting.mp there).2] at pending
      contradiction
    rw [none, List.count_eq_one_of_mem ledger.once waits]

theorem Balances.kept {w : Ward} (balances : w.Balances) : w.Kept where
  tracked := balances.tracked
  checked m h known := (balances.sound m h known).checked
  beaten m h known := (balances.sound m h known).beaten
  heldOnce id pending := by
    obtain ⟨-, -, -, p, -, entry⟩ := balances.ledger.held_of_pending pending
    rw [slots_eq]
    exact List.count_eq_one_of_mem balances.ledger.numbers (List.mem_map.mpr ⟨_, entry, rfl⟩)
  entered := balances.ledger.entered
  due id p entry := by
    rw [balances.ledger.due id p entry, List.mem_filterMap]
  round := round_inFlight balances
  stopped := balances.stop_pending
  beats _ _ := beats_onTick

/-- However a detector is started and whatever happens then, its bookkeeping is in order. -/
theorem bookkeeping_kept (self : Member) (view : View) (settings : Settings) (policy : LossPolicy)
    (now : UInt64) (moves : List Move) :
    ((opened self view settings policy now).after moves).Kept :=
  (balances_after self view settings policy now moves).kept

end Ward

end Cohort.Detector
