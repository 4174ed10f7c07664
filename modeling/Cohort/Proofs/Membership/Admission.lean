import Mathlib.Data.List.Nodup
import Cohort.Proofs.Member.Identity
import Cohort.Proofs.Membership.Quest

/-! What a member makes of the answers to its requests: to which of them it takes an answer to belong,
and when it founds a group of its own. -/

namespace Cohort.Manager

namespace Quest

/-! ### Whose answer is acted on -/

/-- Another request was made before an answer to this one was acted on. -/
def GivenUp (q : Quest) (request : Nat) : Prop :=
  request + 1 < q.asked.length ∧ ∀ deed ∈ q.deeds, deed.attempt ≠ request

instance (q : Quest) (request : Nat) : Decidable (q.GivenUp request) :=
  inferInstanceAs (Decidable (_ ∧ _))

section
variable {q : Quest}

/-- No answer is acted on twice. -/
theorem deed_unique (regular : q.Regular) {a b : Deed} (first : a ∈ q.deeds) (second : b ∈ q.deeds)
    (same : a.letter.asked = b.letter.asked) : a = b := by
  have once : (q.deeds.map fun deed => deed.letter.asked).Nodup := by
    have once := regular.once
    rw [letters, List.map_append, List.map_map] at once
    exact once.of_append_left
  exact List.inj_on_of_nodup_map once first second same

/-- The first answer that was acted on in place of another belongs to a request that was given up. -/
theorem deed_own (regular : q.Regular) (prompt : ∀ deed ∈ q.deeds, ¬ q.GivenUp deed.letter.asked)
    (deed : Deed) (member : deed ∈ q.deeds) : deed.letter.asked = deed.attempt := by
  induction attempt : deed.attempt using Nat.strongRecOn generalizing deed with
  | ind n ih =>
    obtain ⟨early, made⟩ := regular.made deed member
    by_contra different
    have late : deed.letter.asked < n := by omega
    have another : deed.letter.asked + 1 < q.asked.length := by omega
    apply prompt deed member
    refine ⟨another, ?_⟩
    intro other taken same
    -- the earlier attempt was answered by this very letter
    have own := ih deed.letter.asked late other taken same
    rw [deed_unique regular taken member own] at same
    omega

/-- Every answer is acted on in the attempt that asked for it exactly if none of them belongs to a
request that was given up. -/
theorem own_answers_iff (m : Manager) (moves : List Move) :
    (∀ deed ∈ ((begun m).after moves).deeds, deed.letter.asked = deed.attempt) ↔
      ∀ deed ∈ ((begun m).after moves).deeds, ¬ ((begun m).after moves).GivenUp deed.letter.asked := by
  have regular := (kept_after (kept_begun m) moves).regular
  constructor
  · intro own deed member givenUp
    exact givenUp.2 deed member (own deed member).symm
  · exact deed_own regular

end

/-- A member that knows of two others. -/
def seeker : Manager where
  config := { locators := [{ ip := .v4 0x7f000001, port := 2 }, { ip := .v4 0x7f000001, port := 3 }] }
  policy := .weighted 51
  self := .peer 1
  channel := some { ip := .v4 0x7f000001, port := 1 }

/-- The first is not heard in time, and then rejects the member while that waits for the second. -/
theorem late_answer_taken :
    ¬ ∀ deed ∈ ((begun seeker).after [.delivered [.ok ()], .look true, .delivered [.ok ()],
      .arrive ⟨.rejected "not a member of a view", 0⟩, .look false]).deeds,
      deed.letter.asked = deed.attempt := by
  decide +kernel

end Quest

/-! ### Who founds a group -/

namespace Ending

/-- The member got a group of its own, which it was not in before. -/
def Founds (e : Ending) : Prop :=
  e.found = .ok none ∧ e.before.view ≠ some (View.initial e.before.self) ∧
    e.after.view = some (View.initial e.before.self)

/-- Somebody handed over a view to the member while it was asking. -/
def Placed (e : Ending) : Prop :=
  ∃ current, e.before.view = some current ∧ (View.initial e.before.self).id ≤ current.id

/-- The member got into no group at all. -/
def Fails (e : Ending) : Prop := ∃ reason, e.found = .error reason

instance (e : Ending) : Decidable e.Founds := inferInstanceAs (Decidable (_ ∧ _ ∧ _))

end Ending

namespace Quest

def Founds (q : Quest) : Prop := ∃ e ∈ q.ending, e.Founds

instance (q : Quest) : Decidable q.Founds := inferInstanceAs (Decidable (∃ e ∈ q.ending, e.Founds))

/-- A founder's own view is new to it unless it had one that is no older. -/
theorem foundedOver_initial_iff (self : Member) (view : Option View) :
    (view ≠ some (View.initial self) ∧ foundedOver self view = some (View.initial self)) ↔
      ¬ ∃ current, view = some current ∧ (View.initial self).id ≤ current.id := by
  cases view with
  | none => simp [foundedOver]
  | some current =>
    simp only [foundedOver]
    by_cases placed : (View.initial self).id ≤ current.id
    · rw [if_pos placed]
      refine ⟨?_, fun none => absurd ⟨current, rfl, placed⟩ none⟩
      rintro ⟨other, same⟩
      exact absurd same other
    · rw [if_neg placed]
      refine ⟨?_, fun _ => ⟨?_, rfl⟩⟩
      · rintro - ⟨_, same, newer⟩
        exact placed (Option.some.inj same ▸ newer)
      · intro same
        exact placed (Option.some.inj same ▸ Int32.le_refl _)

section
variable {q : Quest}

theorem Goes.concludes (goes : q.Goes) {e : Ending} (ends : q.ending = some e) : Concludes q e := by
  cases goes with
  | waits _ none _ _ =>
    rw [none] at ends
    contradiction
  | ended _ same concludes => exact Option.some.inj (same.symm.trans ends) ▸ concludes

theorem founds_iff {e : Ending} (concludes : Concludes q e) :
    e.Founds ↔ ¬ (e.Fails ∨ q.Admitted ∨ e.Placed) := by
  rw [concludes.admitted]
  unfold Ending.Founds Ending.Fails
  cases found : e.found with
  | error reason => simp
  | ok view =>
    cases view with
    | some view => simp
    | none =>
      rw [concludes.founded found]
      simpa [Ending.Placed] using foundedOver_initial_iff e.before.self e.before.view

/-- Only those whom nobody answered found a group exactly if whoever was answered got into one that was
there, or into none. -/
theorem founds_unanswered_iff (m : Manager) (moves : List Move) :
    (((begun m).after moves).Founds → ((begun m).after moves).answered = []) ↔
      ∀ e ∈ ((begun m).after moves).ending, ((begun m).after moves).answered ≠ [] →
        e.Fails ∨ ((begun m).after moves).Admitted ∨ e.Placed := by
  have goes := (kept_after (kept_begun m) moves).goes
  generalize (begun m).after moves = q at goes ⊢
  constructor
  · intro unanswered e ends answered
    by_contra nowhere
    exact answered (unanswered ⟨e, ends, (founds_iff (goes.concludes ends)).mpr nowhere⟩)
  · rintro admits ⟨e, ends, founds⟩
    by_contra answered
    exact (founds_iff (goes.concludes ends)).mp founds (admits e ends answered)

end

/-- The first turns the member away, and the second is not heard in time. -/
def turnedAway : Quest :=
  (begun seeker).after [.delivered [.ok ()],
    .arrive ⟨.rejected "the coordinator changed, retry", 0⟩, .look false, .delivered [.ok ()], .look true]

theorem turned_away_founds : ¬ (turnedAway.Founds → turnedAway.answered = []) := by
  decide +kernel

end Quest

end Cohort.Manager
