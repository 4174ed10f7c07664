import Mathlib.Data.List.Nodup
import Cohort.Health.Detector
import Cohort.Proofs.Schedule.Steps

/-! What the timers of a detector are for, and who keeps account of them. A ledger has an entry for each
timer that the detector holds; it agrees with the schedule when every pending timer has its entry, and
when a timer that has an entry is pending just as long as its expiry has not come up. -/

namespace Cohort.Detector

/-- What a timer ends: the pause before a round of heartbeats, or the wait for an answer. -/
inductive Expiry where
  | round
  | heartbeat (member : Identity) (request : UInt64)
  | finalCheck (member : Identity) (request : UInt64)
  deriving DecidableEq

def Event.expiry? : Event → Option Expiry
  | .heartbeatTick => some .round
  | .heartbeatTimeout m request => some (.heartbeat m.identity request)
  | .finalCheckTimeout m request => some (.finalCheck m.identity request)
  | _ => none

/-- The request whose answer is waited for has a number below `next`. -/
def Expiry.Below (next : Nat) : Expiry → Prop
  | .round => True
  | .heartbeat _ request | .finalCheck _ request => request.toNat < next

theorem Expiry.Below.mono {p : Expiry} {a b : Nat} (below : p.Below a) (le : a ≤ b) : p.Below b := by
  cases p with
  | round => trivial
  | heartbeat | finalCheck => exact Nat.lt_of_lt_of_le below le

/-- Some timers and a ledger agree. `held` has a number and a purpose for each timer that is held, and
`queue` the purposes of those that ran out and were not handled since. -/
structure Ledger (timers : Schedule Event) (held : List (Nat × Expiry)) (queue : List Expiry)
    (next : Nat) : Prop where
  coherent : timers.Coherent
  numbers : (held.map (·.1)).Nodup
  purposes : (held.map (·.2)).Nodup
  known : ∀ id ∈ held.map (·.1), id < timers.nextId
  entered : ∀ t ∈ timers.waiting, ∃ p, t.task.expiry? = some p ∧ (t.id, p) ∈ held
  due : ∀ id p, (id, p) ∈ held → (timers.isPending id = true ↔ p ∉ queue)
  once : queue.Nodup
  below : ∀ p, p ∈ held.map (·.2) ∨ p ∈ queue → p.Below next

namespace Ledger

variable {timers : Schedule Event} {held lost kept : List (Nat × Expiry)} {queue : List Expiry}
  {next : Nat} {id : Nat} {p : Expiry}

theorem start (next : Nat) (now : UInt64) : Ledger { now := now.toNat } [] [] next where
  coherent := Schedule.coherent_start now
  numbers := .nil
  purposes := .nil
  known _ member := nomatch member
  entered _ member := nomatch member
  due _ _ member := nomatch member
  once := .nil
  below _ either := nomatch either

theorem mono (ledger : Ledger timers held queue next) {later : Nat} (le : next ≤ later) :
    Ledger timers held queue later :=
  { ledger with below := fun p either => (ledger.below p either).mono le }

theorem perm (ledger : Ledger timers held queue next) (same : held.Perm kept) :
    Ledger timers kept queue next where
  coherent := ledger.coherent
  numbers := (same.map _).nodup_iff.mp ledger.numbers
  purposes := (same.map _).nodup_iff.mp ledger.purposes
  known id member := ledger.known id ((same.map _).mem_iff.mpr member)
  entered t there := by
    obtain ⟨p, purpose, member⟩ := ledger.entered t there
    exact ⟨p, purpose, same.mem_iff.mp member⟩
  due id p member := ledger.due id p (same.mem_iff.mpr member)
  once := ledger.once
  below p either := ledger.below p (either.imp_left (same.map _).mem_iff.mpr)

/-- The entry of a pending timer says what its task says. -/
theorem purpose_of_waiting (ledger : Ledger timers held queue next) {t : Armed Event}
    (there : t ∈ timers.waiting) (member : (t.id, p) ∈ held) : t.task.expiry? = some p := by
  obtain ⟨q, purpose, entry⟩ := ledger.entered t there
  have same := List.inj_on_of_nodup_map ledger.numbers entry member rfl
  exact purpose.trans (congrArg some (congrArg Prod.snd same))

theorem held_of_pending (ledger : Ledger timers held queue next) (pending : timers.isPending id = true) :
    ∃ t ∈ timers.waiting, t.id = id ∧ ∃ p, t.task.expiry? = some p ∧ (id, p) ∈ held := by
  obtain ⟨t, stored, rfl⟩ := ledger.coherent.kept id pending
  have there := Schedule.mem_waiting.mpr ⟨stored, pending⟩
  exact ⟨t, there, rfl, ledger.entered t there⟩

/-- A request with a new number has come up nowhere. -/
theorem fresh (ledger : Ledger timers held queue next) (new : ¬ p.Below next) :
    p ∉ held.map (·.2) ∧ p ∉ queue :=
  ⟨fun member => new (ledger.below p (Or.inl member)), fun member => new (ledger.below p (Or.inr member))⟩

/-! ### Entries -/

/-- A new timer, for what no other is held for and nothing has come up for, gets an entry. -/
theorem arm (ledger : Ledger timers held queue next) (delay : Span) (event : Event)
    (purpose : event.expiry? = some p) (unheld : p ∉ held.map (·.2)) (quiet : p ∉ queue)
    (numbered : p.Below next) :
    Ledger (timers.arm delay event).1 ((timers.nextId, p) :: held) queue next where
  coherent := ledger.coherent.arm delay event
  numbers := List.nodup_cons.mpr ⟨fun member => Nat.lt_irrefl _ (ledger.known _ member), ledger.numbers⟩
  purposes := List.nodup_cons.mpr ⟨unheld, ledger.purposes⟩
  known id member := by
    rw [Schedule.nextId_arm]
    rcases List.mem_cons.mp member with rfl | old
    · exact Nat.lt_succ_self _
    · exact Nat.lt_succ_of_lt (ledger.known id old)
  entered t there := by
    rcases (Schedule.waiting_arm ledger.coherent delay event t).mp there with old | rfl
    · obtain ⟨q, other, member⟩ := ledger.entered t old
      exact ⟨q, other, List.mem_cons_of_mem _ member⟩
    · exact ⟨p, purpose, List.mem_cons_self⟩
  due id q member := by
    rw [Schedule.isPending_arm]
    rcases List.mem_cons.mp member with new | old
    · cases new
      exact iff_of_true (Or.inl rfl) quiet
    · have earlier := ledger.known id (List.mem_map.mpr ⟨_, old, rfl⟩)
      rw [← ledger.due id q old]
      exact or_iff_right (Nat.ne_of_lt earlier)
  once := ledger.once
  below q either := by
    rcases either with held | queued
    · rcases List.mem_cons.mp held with rfl | old
      · exact numbered
      · exact ledger.below q (Or.inl old)
    · exact ledger.below q (Or.inr queued)

/-- A timer that is cancelled loses its entry. -/
theorem cancel (ledger : Ledger timers ((id, p) :: held) queue next) :
    Ledger (timers.cancel id).1 held queue next where
  coherent := ledger.coherent.cancel id
  numbers := (List.nodup_cons.mp ledger.numbers).2
  purposes := (List.nodup_cons.mp ledger.purposes).2
  known other member := by
    rw [Schedule.cancel, Schedule.nextId_settle]
    exact ledger.known other (List.mem_cons_of_mem id member)
  entered t there := by
    obtain ⟨waits, apart⟩ := (Schedule.waiting_cancel id t).mp there
    obtain ⟨q, purpose, member⟩ := ledger.entered t waits
    refine ⟨q, purpose, (List.mem_cons.mp member).resolve_left fun same => apart ?_⟩
    exact congrArg Prod.fst same
  due other q member := by
    have apart : other ≠ id := by
      rintro rfl
      exact (List.nodup_cons.mp ledger.numbers).1 (List.mem_map.mpr ⟨_, member, rfl⟩)
    rw [Schedule.cancel, Schedule.isPending_settle (by decide), and_iff_left apart]
    exact ledger.due other q (List.mem_cons_of_mem _ member)
  once := ledger.once
  below q either := ledger.below q (either.imp_left (List.mem_cons_of_mem p))

theorem cancelEach (ledger : Ledger timers (lost ++ kept) queue next) :
    Ledger ((lost.map (·.1)).foldl (fun timers id => (timers.cancel id).1) timers) kept queue next := by
  induction lost generalizing timers with
  | nil => exact ledger
  | cons entry rest ih => exact ih ledger.cancel

/-- What has come up may be struck off without cancelling. -/
theorem strike (ledger : Ledger timers ((id, p) :: held) queue next) (queued : p ∈ queue) :
    Ledger timers held queue next := by
  have settled : timers.isPending id = false :=
    Bool.eq_false_iff.mpr fun pending => (ledger.due id p List.mem_cons_self).mp pending queued
  have struck := ledger.cancel
  rw [Schedule.cancel, Schedule.settle_of_settled settled] at struck
  exact struck

/-! ### The queue -/

theorem queue_perm (ledger : Ledger timers held queue next) {other : List Expiry}
    (same : queue.Perm other) : Ledger timers held other next :=
  { ledger with
    due := fun id p member => by rw [ledger.due id p member, same.mem_iff]
    once := same.nodup_iff.mp ledger.once
    below := fun p either => ledger.below p (either.imp_right same.mem_iff.mpr) }

/-- What no timer is held for may be dropped from the queue. -/
theorem discard (ledger : Ledger timers held (p :: queue) next) (unheld : p ∉ held.map (·.2)) :
    Ledger timers held queue next ∧ p ∉ queue := by
  obtain ⟨quiet, once⟩ := List.nodup_cons.mp ledger.once
  refine ⟨{ ledger with
    due := fun id q member => ?_
    once := once
    below := fun q either => ledger.below q (either.imp_right (List.mem_cons_of_mem p)) }, quiet⟩
  have apart : q ≠ p := by
    rintro rfl
    exact unheld (List.mem_map.mpr ⟨_, member, rfl⟩)
  rw [ledger.due id q member, List.mem_cons, or_iff_right apart]

/-! ### The schedule -/

theorem clock (ledger : Ledger timers held queue next) (now : UInt64) :
    Ledger { timers with now := now.toNat } held queue next :=
  { ledger with coherent := { ledger.coherent with clock := now.toNat_lt } }

/-- The tasks that a turn takes from the schedule come up. -/
theorem turn (ledger : Ledger timers held queue next) (time : Nat) :
    Ledger (timers.turn time).1 held
      (queue ++ (timers.turn time).2.ran.filterMap (·.task.expiry?)) next := by
  have coherent := ledger.coherent.turn time
  have fields := timers.turn_fields time
  have waits := Schedule.waiting_turn ledger.coherent time
  have pending : ∀ id, (timers.turn time).1.isPending id = true ↔ timers.isPending id = true ∧
      ∀ t ∈ (timers.turn time).2.ran, t.id ≠ id := by
    intro id
    rcases timers.turn_cases time with
      ⟨moved, -⟩ | ⟨task, rest, -, -, ⟨-, moved⟩ | ⟨-, moved⟩⟩ <;> rw [moved]
    · exact (and_iff_left fun t member => absurd member List.not_mem_nil).symm
    · exact (and_iff_left fun t member => absurd member List.not_mem_nil).symm
    · rw [Schedule.isPending_settle (by decide)]
      refine and_congr_right fun _ => ⟨fun other t member => ?_, fun others => ?_⟩
      · rw [List.mem_singleton.mp member]
        exact Ne.symm other
      · exact Ne.symm (others task (List.mem_singleton.mpr rfl))
  have entered : ∀ t ∈ (timers.turn time).1.waiting, ∃ p, t.task.expiry? = some p ∧ (t.id, p) ∈ held :=
    fun t there => ledger.entered t ((waits t).mp there).1
  cases found : (timers.turn time).2 with
  | idle | stale =>
    rw [found] at pending
    exact
      { ledger with
        coherent := coherent
        known := fun id member => fields.2.1.symm ▸ ledger.known id member
        entered := entered
        due := fun id p member => by
          rw [(pending id).trans (and_iff_left fun t none => absurd none List.not_mem_nil),
            ledger.due id p member]
          exact not_congr (by simp [Schedule.Turn.ran])
        once := by simpa [Schedule.Turn.ran] using ledger.once
        below := fun p either => ledger.below p (by simpa [Schedule.Turn.ran] using either) }
  | runs t =>
    have there := (ledger.coherent.of_ran found).1
    obtain ⟨q, purpose, entry⟩ := ledger.entered t there
    have quiet : q ∉ queue := (ledger.due t.id q entry).mp (Schedule.mem_waiting.mp there).2
    have ran : (Schedule.Turn.runs t).ran.filterMap (·.task.expiry?) = [q] := by
      simp [Schedule.Turn.ran, purpose]
    rw [found] at pending
    rw [ran]
    exact
      { ledger with
        coherent := coherent
        known := fun id member => fields.2.1.symm ▸ ledger.known id member
        entered := entered
        due := fun id p member => by
          have alone : t.id ≠ id ↔ p ≠ q := by
            refine not_congr ⟨?_, ?_⟩
            · rintro rfl
              exact congrArg Prod.snd (List.inj_on_of_nodup_map ledger.numbers member entry rfl)
            · rintro rfl
              exact congrArg Prod.fst (List.inj_on_of_nodup_map ledger.purposes entry member rfl)
          rw [pending id, ledger.due id p member, List.mem_append, List.mem_singleton, not_or]
          refine and_congr_right fun _ => Iff.trans ⟨fun others => ?_, fun other u member => ?_⟩ alone
          · exact others t (List.mem_singleton.mpr rfl)
          · rw [List.mem_singleton.mp member]
            exact other
        once := List.nodup_append.mpr ⟨ledger.once, List.nodup_singleton q, fun a queued b new => by
          rintro rfl
          rw [List.mem_singleton.mp new] at queued
          exact quiet queued⟩
        below := fun p either => by
          refine ledger.below p ?_
          rcases either with held | queued
          · exact Or.inl held
          · rcases List.mem_append.mp queued with old | new
            · exact Or.inr old
            · rw [List.mem_singleton.mp new]
              exact Or.inl (List.mem_map.mpr ⟨_, entry, rfl⟩) }

end Ledger

end Cohort.Detector
