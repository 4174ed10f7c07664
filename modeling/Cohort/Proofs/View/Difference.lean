import Cohort.Proofs.View.Successor

/-! What the events between two views tell of the members: whoever applies them to the members of the
first view has those of the second, in whatever way the two views are related. -/

namespace Cohort.View

/-- What an event makes of the members that somebody knows of. -/
def follow (members : List Member) : Event → List Member
  | .joined m => members ++ [m]
  | .left m | .crashed m => members.filter (!·.same m)
  | _ => members

/-- Whether an event tells of a member that came or went. -/
def Event.isChange : Event → Bool
  | .joined _ | .left _ | .crashed _ => true
  | _ => false

/-- The view that an event announces. -/
def Event.installed? : Event → Option View
  | .installed v => some v
  | _ => none

/-- Whether an event tells that the member was expelled. -/
def Event.isExpulsion : Event → Bool
  | .expelled _ => true
  | _ => false

theorem mem_coordinatorEvent {previous current : Option Member} {e : Event}
    (member : e ∈ coordinatorEvent previous current) : ∃ new, e = .coordinatorChanged previous new := by
  unfold coordinatorEvent at member
  cases current with
  | none => cases member
  | some new =>
    dsimp only at member
    split at member
    · cases member
    · exact ⟨new, List.mem_singleton.mp member⟩

theorem follow_plain {e : Event} (plain : e.isChange = false) (members : List Member) :
    follow members e = members := by
  cases e <;> first | rfl | contradiction

theorem foldl_follow_plain {events : List Event} (plain : ∀ e ∈ events, e.isChange = false)
    (members : List Member) : events.foldl follow members = members := by
  induction events with
  | nil => rfl
  | cons e rest ih =>
    rw [List.foldl_cons, follow_plain (plain e List.mem_cons_self)]
    exact ih fun other member => plain other (List.mem_cons_of_mem _ member)

theorem foldl_follow_joined (joiners members : List Member) :
    (joiners.map Event.joined).foldl follow members = members ++ joiners := by
  induction joiners generalizing members with
  | nil => simp
  | cons m rest ih =>
    rw [List.map_cons, List.foldl_cons, ih]
    simp [follow]

/-- Whether somebody left or crashed makes no difference to who is there. -/
theorem foldl_follow_gone {report : Member → Event}
    (goes : ∀ m, report m = .left m ∨ report m = .crashed m) (gone members : List Member) :
    (gone.map report).foldl follow members = members.filter (!·.isIn gone) := by
  induction gone generalizing members with
  | nil =>
    symm
    exact List.filter_eq_self.mpr fun x _ => rfl
  | cons m rest ih =>
    have first : follow members (report m) = members.filter (!·.same m) := by
      rcases goes m with left | crashed
      · rw [left]; rfl
      · rw [crashed]; rfl
    rw [List.map_cons, List.foldl_cons, first, ih, List.filter_filter]
    refine List.filter_congr fun x _ => ?_
    simp only [Member.isIn, List.any_cons, Bool.not_or, Bool.and_comm]

section
variable (view previous : View)

/-- The events from one view to the next, applied to the members of the first. -/
theorem diff_members : (view.diff (some previous)).foldl follow previous.members =
    (previous.members ++ view.members.filter (!previous.contains ·)).filter
      (!·.isIn (previous.members.filter (!view.contains ·))) := by
  have ends : ∀ members, (coordinatorEvent previous.coordinator view.coordinator
      ++ [Event.installed view]).foldl follow members = members := fun members => by
    refine foldl_follow_plain (fun e member => ?_) members
    rcases List.mem_append.mp member with announced | last
    · obtain ⟨new, rfl⟩ := mem_coordinatorEvent announced
      rfl
    · rw [List.mem_singleton.mp last]
      rfl
  have report : ∀ m : Member, (if m.isIn view.crashed then Event.crashed m else .left m) = .left m ∨
      (if m.isIn view.crashed then Event.crashed m else .left m) = .crashed m := fun m => by
    split
    · exact Or.inr rfl
    · exact Or.inl rfl
  rw [diff, List.append_assoc, List.foldl_append, ends, List.foldl_append, foldl_follow_joined,
    foldl_follow_gone report]

/-- Whoever follows the events knows exactly who is in the new view. -/
theorem isIn_diff (m : Member) :
    m.isIn ((view.diff (some previous)).foldl follow previous.members) = view.contains m := by
  have gone : ∀ x, x.isIn (previous.members.filter (!view.contains ·)) = true →
      view.contains x = false := fun x found => by
    obtain ⟨y, -, absent, alike⟩ := (Member.isIn_filter _ _ _).mp found
    rw [View.contains_congr alike]
    simpa using absent
  rw [diff_members, Bool.eq_iff_iff, Member.isIn_filter]
  constructor
  · rintro ⟨x, member, stays, alike⟩
    rw [View.contains_congr alike]
    rcases List.mem_append.mp member with old | new
    · cases inside : view.contains x with
      | true => rfl
      | false =>
        have left : x ∈ previous.members.filter (!view.contains ·) :=
          List.mem_filter.mpr ⟨old, by simpa using inside⟩
        rw [Member.isIn_of_mem left] at stays
        contradiction
    · exact Member.isIn_of_mem (List.mem_filter.mp new).1
  · intro inside
    obtain ⟨y, member, alike⟩ := (Member.isIn_iff _ _).mp inside
    -- It was there already, under whatever description, or it joins.
    have found : ∃ x ∈ previous.members ++ view.members.filter (!previous.contains ·),
        y.same x = true := by
      by_cases known : previous.contains y = true
      · obtain ⟨x, old, same⟩ := (Member.isIn_iff _ _).mp known
        exact ⟨x, List.mem_append_left _ old, same⟩
      · refine ⟨y, List.mem_append_right _ (List.mem_filter.mpr ⟨member, ?_⟩), Member.same_refl y⟩
        simpa using known
    obtain ⟨x, there, same⟩ := found
    refine ⟨x, there, ?_, Member.same_trans alike same⟩
    rw [Bool.not_eq_true', ← Bool.not_eq_true]
    intro left
    have absent := gone x left
    rw [← View.contains_congr (Member.same_trans alike same), inside] at absent
    contradiction

theorem diff_installed (previous : Option View) :
    (view.diff previous).filterMap Event.installed? = [view] := by
  have none : ∀ old new, (coordinatorEvent old new).filterMap Event.installed? = [] :=
    fun old new => List.filterMap_eq_nil_iff.mpr fun e member => by
      obtain ⟨chosen, rfl⟩ := mem_coordinatorEvent member
      rfl
  cases previous with
  | none => rw [diff, List.filterMap_append, none]; rfl
  | some previous =>
    have gone : ∀ members : List Member, (members.map fun m =>
        if m.isIn view.crashed then Event.crashed m else .left m).filterMap Event.installed? = [] := by
      intro members
      refine List.filterMap_eq_nil_iff.mpr fun e member => ?_
      obtain ⟨m, -, rfl⟩ := List.mem_map.mp member
      split <;> rfl
    have joined : ∀ members : List Member,
        (members.map Event.joined).filterMap Event.installed? = [] := by
      intro members
      refine List.filterMap_eq_nil_iff.mpr fun e member => ?_
      obtain ⟨m, -, rfl⟩ := List.mem_map.mp member
      rfl
    rw [diff]
    simp only [List.filterMap_append, joined, gone, none, List.nil_append]
    rfl

theorem diff_expulsion (previous : Option View) :
    ∀ e ∈ view.diff previous, e.isExpulsion = false := by
  have quiet : ∀ old new, ∀ e ∈ coordinatorEvent old new, e.isExpulsion = false := by
    intro old new e member
    obtain ⟨chosen, rfl⟩ := mem_coordinatorEvent member
    rfl
  intro e member
  cases previous with
  | none =>
    rcases List.mem_append.mp member with announced | last
    · exact quiet _ _ e announced
    · rw [List.mem_singleton.mp last]
      rfl
  | some previous =>
    rcases List.mem_append.mp member with before | last
    · rcases List.mem_append.mp before with changes | announced
      · rcases List.mem_append.mp changes with came | went
        · obtain ⟨m, -, rfl⟩ := List.mem_map.mp came
          rfl
        · obtain ⟨m, -, rfl⟩ := List.mem_map.mp went
          split <;> rfl
      · exact quiet _ _ e announced
    · rw [List.mem_singleton.mp last]
      rfl

end

end Cohort.View
