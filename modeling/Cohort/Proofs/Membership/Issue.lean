import Cohort.Proofs.Membership.Course

/-! The views that a member makes: how they are numbered, and as whom it makes them. Both promises fail
around a handover, because a coordinator that leaves makes a view that it never has itself, and
decides on that before its turn. -/

namespace Cohort.Manager.Course

/-! ### One view for each number -/

section
variable {c : Course}

theorem next_id_iff (kept : c.Kept) {p q : Production} (first : p ∈ c.made) (second : q ∈ c.made) :
    p.next.id = q.next.id ↔ p.current.id = q.current.id := by
  rw [nextView_id (kept.proper p first).made, nextView_id (kept.proper q second).made]
  exact Int32.add_left_inj 1

/-- Views of one number are made of views of one number, and only after one that was handed over or
whose number is the greatest. -/
theorem same_id_iff (kept : c.Kept) (related : Production → Production → Prop) :
    c.made.Pairwise (fun p q => p.next.id = q.next.id → related p q) ↔
      c.made.Pairwise fun p q => p.Ends → p.current.id = q.current.id → related p q := by
  constructor
  · intro holds
    refine List.Pairwise.imp_of_mem (fun first second relates _ same => ?_) holds
    exact relates ((next_id_iff kept first second).mpr same)
  · intro holds
    refine List.Pairwise.imp_of_mem (fun first second both same => ?_) (kept.apart.and holds)
    rename_i p q
    obtain ⟨newer, relates⟩ := both
    have current := (next_id_iff kept first second).mp same
    by_cases ends : p.Ends
    · exact relates ends current
    · exact absurd (newer ends) (current ▸ Int32.lt_irrefl)

end

/-- The views that a member makes have numbers of their own if and only if it makes no second view of
one that it has handed over, or whose number is the greatest; and it makes no two different views of
one number if and only if it makes no different one there. -/
theorem ids_pairwise_iff (config : Config) (policy : LossPolicy) (self : Member)
    (channel : Option Net.Endpoint) (rota : Detector.Rota) (moves : List Move) :
    let made := ((fresh config policy self channel rota).after moves).made
    (made.Pairwise (fun p q => p.next.id ≠ q.next.id) ↔
      made.Pairwise fun p q => p.Ends → p.current.id ≠ q.current.id) ∧
    (made.Pairwise (fun p q => p.next.id = q.next.id → p.next = q.next) ↔
      made.Pairwise fun p q => p.Ends → p.current.id = q.current.id → p.next = q.next) := by
  intro made
  have kept := kept_after (kept_fresh config policy self channel rota) moves
  exact ⟨same_id_iff kept fun _ _ => False, same_id_iff kept fun p q => p.next = q.next⟩

/-- Everything that is waited for comes about. -/
def granted : (effect : Effect) → effect.Answer
  | .datagram _ _ => .ok ()
  | .multicast _ => .ok ()
  | .deliver deliveries => deliveries.map fun _ => .ok ()
  | .joinAnswer _ => .silence
  | .handler _ => .ok ()
  | .changeTurn _ => ()
  | .disconnect _ => ()
  | .actorEnd _ _ => ()
  | .closeChannel => ()
  | .closeTransport => ()
  | .closed => ()

def founder : Course :=
  fresh {} (.weighted 51) (.peer 1) (some { ip := .v4 0x7f000001, port := 1 })

def asks (joiner : Member) : Move :=
  .begin (.direct { sender := some joiner, payload := .joinRequest joiner })

/-- A member founds a group and takes in a second one. -/
def ofTwo : Course :=
  founder.after [.begin .start, asks (.peer 2), .resume 0 granted, .resume 0 granted]

/-- The coordinator leaves, and while it hands over, somebody asks to join. -/
def joinedLate : List Move :=
  [.begin .leave, asks (.peer 3), .resume 0 granted, .resume 1 granted, .resume 0 granted]

theorem joinedLate_repeats_id :
    ¬ (ofTwo.after joinedLate).made.Pairwise (fun p q => p.next.id ≠ q.next.id) ∧
      ¬ (ofTwo.after joinedLate).made.Pairwise fun p q => p.next.id = q.next.id → p.next = q.next := by
  decide

/-! ### Who makes a view -/

/-- A view was made by a member that coordinates the view it was made of, or what the change leaves of
it. -/
def Coordinated (p : Production) : Prop := Coordinates p.self p.current p.change

instance (p : Production) : Decidable (Coordinated p) :=
  inferInstanceAs (Decidable (_ = true ∨ _ = true))

/-- A handover or a removal got its turn only after the view had changed and the role had gone to
another member, which keeps it when those removed are gone. -/
def Overtaken (p : Production) : Prop :=
  p.basis ≠ some p.current ∧ isSelf p.self p.current.coordinator = false ∧
    match p.change with
    | .admission _ | .departure _ => False
    | .removal crashed =>
      isSelf p.self (p.current.coordinatorWithout (crashed.filter (p.current.contains ·))) = false
    | .handover => True

theorem coordinated_of_proper {p : Production} (proper : p.Proper) (fair : ¬ Overtaken p) :
    Coordinated p := by
  by_contra other
  have untimely : ¬ (p.change.isEarly = true → p.basis = some p.current) := fun timely =>
    other (coordinates_of_decided proper.made proper.decided timely)
  have early : p.change.isEarly = true := by
    by_contra late
    exact untimely fun early => absurd early late
  have moved : p.basis ≠ some p.current := fun same => untimely fun _ => same
  obtain ⟨change, self, phase, current, next, basis⟩ := p
  obtain ⟨now, after⟩ := not_or.mp other
  refine fair ⟨moved, Bool.eq_false_iff.mpr now, ?_⟩
  cases change with
  | admission | departure => contradiction
  | removal crashed => exact Bool.eq_false_iff.mpr after
  | handover => trivial

theorem not_coordinated_of_overtaken {p : Production} (overtaken : Overtaken p) : ¬ Coordinated p := by
  obtain ⟨change, self, phase, current, next, basis⟩ := p
  obtain ⟨-, now, after⟩ := overtaken
  refine not_or.mpr ⟨Bool.eq_false_iff.mp now, fun elected => ?_⟩
  cases change with
  | admission | departure => exact after
  | removal crashed => exact Bool.eq_false_iff.mp after elected
  | handover =>
    -- Nobody coordinates what is left once it is gone itself.
    have gone : self.isIn [self] = false := not_isIn_of_elected elected
    rw [Member.isIn_of_mem List.mem_cons_self] at gone
    contradiction

/-- A member makes every view as coordinator but those of a handover or a removal that were overtaken
while they waited for their turn. So a running member makes views only as coordinator if and only if
none of its changes was overtaken. -/
theorem coordinated_iff (config : Config) (policy : LossPolicy) (self : Member)
    (channel : Option Net.Endpoint) (rota : Detector.Rota) (moves : List Move) :
    let made := ((fresh config policy self channel rota).after moves).made
    (∀ p ∈ made, Coordinated p ↔ ¬ Overtaken p) ∧
    ((∀ p ∈ made, p.phase = .running → Coordinated p) ↔
      ∀ p ∈ made, p.phase = .running → ¬ Overtaken p) := by
  intro made
  have kept := kept_after (kept_fresh config policy self channel rota) moves
  have each : ∀ p ∈ made, Coordinated p ↔ ¬ Overtaken p := fun p member =>
    ⟨fun coordinated overtaken => not_coordinated_of_overtaken overtaken coordinated,
      coordinated_of_proper (kept.proper p member)⟩
  refine ⟨each, ⟨fun holds p member running => ?_, fun holds p member running => ?_⟩⟩
  · exact (each p member).mp (holds p member running)
  · exact (each p member).mpr (holds p member running)

def favourite : Member := { Member.peer 3 with preferred := true, preferred_may := fun _ => rfl }

/-- Somebody who goes before others asks to join, and the coordinator leaves before that is done. -/
def leftLate : List Move :=
  [asks favourite, .begin .leave, .resume 0 granted, .resume 1 granted, .resume 0 granted]

theorem leftLate_uncoordinated :
    ¬ ∀ p ∈ (ofTwo.after leftLate).made, p.phase = .running → Coordinated p := by
  decide

end Cohort.Manager.Course
