import Cohort.Proofs.View.Difference
import Cohort.Proofs.View.Succession

/-! What one change makes of a view, and what is told of it. The list of the next view and the events that
lead to it are computed apart, whoever joins, departs and crashes at once; both are given here in terms of
the view before and of the three lists. -/

namespace Cohort.View

/-- The joiners that are new besides some known members: of each incarnation the first description. -/
def newcomers (known joined : List Member) : List Member :=
  (joined.zipIdx.filter fun (m, place) => !m.isIn (known ++ joined.take place)).map Prod.fst

/-- The event that tells of a member that is gone. -/
def loss (crashed : List Member) (m : Member) : Event :=
  if m.isIn crashed then .crashed m else .left m

/-- A coordinator of another incarnation than the one before, or the first one, is announced. -/
def announcement (previous : Option Member) : Option Member → List Event
  | none => []
  | some leader =>
    if previous.map (·.identity) = some leader.identity then []
    else [.coordinatorChanged previous leader]

/-! ### Joiners -/

variable {known : List Member} {m : Member}

theorem newcomers_congr {known' : List Member} (alike : ∀ m : Member, m.isIn known = m.isIn known')
    (joined : List Member) : newcomers known joined = newcomers known' joined := by
  unfold newcomers
  congr 2
  funext ⟨m, place⟩
  simp only [Member.isIn_append, alike]

theorem newcomers_cons (joiner : Member) (rest : List Member) : newcomers known (joiner :: rest) =
    (if joiner.isIn known then [] else [joiner]) ++ newcomers (known ++ [joiner]) rest := by
  have later : (rest.zipIdx 1).filter (fun (m, place) => !m.isIn (known ++ (joiner :: rest).take place)) =
      (rest.zipIdx.filter fun (m, place) => !m.isIn (known ++ [joiner] ++ rest.take place)).map
        fun (m, place) => (m, place + 1) := by
    rw [List.zipIdx_succ, List.filter_map]
    congr 2
    funext ⟨m, place⟩
    simp
  unfold newcomers
  rw [List.zipIdx_cons, List.filter_cons, later]
  cases present : joiner.isIn known <;> simp [present]

/-- One more description of somebody who is known changes nothing. -/
theorem isIn_append_known {joiner : Member} (present : joiner.isIn known = true) (m : Member) :
    m.isIn (known ++ [joiner]) = m.isIn known := by
  rw [Member.isIn_append]
  cases alike : m.same joiner with
  | false => simp [Member.isIn, alike]
  | true =>
    rw [Member.isIn_congr alike, Member.isIn_congr alike, present]
    rfl

/-- Joiners go behind those who are there, the new ones among them in their order and stamped. -/
theorem foldl_enrol_eq (id : Int32) (joined members : List Member) :
    joined.foldl (enrol id) members =
      members ++ (newcomers members joined).map (·.withViewId id) := by
  induction joined generalizing members with
  | nil => simp [newcomers]
  | cons joiner rest ih =>
    rw [List.foldl_cons, ih, newcomers_cons]
    cases present : joiner.isIn members with
    | true =>
      have same := newcomers_congr (isIn_append_known present) rest
      simp [enrol, present, same]
    | false =>
      have same : newcomers (members ++ [joiner.withViewId id]) rest =
          newcomers (members ++ [joiner]) rest := by
        apply newcomers_congr
        intro m
        rw [Member.isIn_append, Member.isIn_append]
        rfl
      simp [enrol, present, same]

theorem isIn_foldl_enrol (id : Int32) (joined members : List Member) (m : Member) :
    m.isIn (joined.foldl (enrol id) members) = (m.isIn members || m.isIn joined) := by
  induction joined generalizing members with
  | nil => exact (Bool.or_false _).symm
  | cons joiner rest ih =>
    have one : m.isIn (enrol id members joiner) = (m.isIn members || m.same joiner) := by
      unfold enrol
      split
      · rename_i present
        rw [← isIn_append_known present, Member.isIn_append]
        simp [Member.isIn]
      · rw [Member.isIn_append]
        simp only [Member.isIn, List.any_cons, List.any_nil, Bool.or_false]
        rfl
    rw [List.foldl_cons, ih, one, Bool.or_assoc]
    rfl

/-! ### Who comes and who goes -/

section
variable (view : View) (creator : Member) (joined departed crashed : List Member)

theorem isIn_staying {view : View} {departed crashed : List Member} (member : m ∈ view.members) :
    m.isIn (view.members.filter (stays departed crashed)) = stays departed crashed m := by
  rw [Bool.eq_iff_iff, Member.isIn_filter]
  constructor
  · rintro ⟨x, -, remains, alike⟩
    rwa [stays_congr alike]
  · intro remains
    exact ⟨m, member, remains, Member.same_refl m⟩

theorem members_successor_eq : (view.successor creator joined departed crashed).members =
    view.members.filter (stays departed crashed) ++
      (newcomers (view.members.filter (stays departed crashed)) joined).map
        (·.withViewId (view.id + 1)) :=
  foldl_enrol_eq (view.id + 1) joined (view.members.filter (stays departed crashed))

/-- The members of the next view that the view before does not have are the joiners that are new besides
all its members: whoever leaves and joins again at once does not come anew. -/
theorem came_eq :
    (view.successor creator joined departed crashed).members.filter (!view.contains ·) =
      (newcomers view.members joined).map (·.withViewId (view.id + 1)) := by
  have old : (view.members.filter (stays departed crashed)).filter (!view.contains ·) = [] := by
    apply List.filter_eq_nil_iff.mpr
    intro m member
    have present : view.contains m = true := Member.isIn_of_mem (List.mem_filter.mp member).1
    simp [present]
  have new : (newcomers (view.members.filter (stays departed crashed)) joined).filter
      (!view.contains ·) = newcomers view.members joined := by
    unfold newcomers
    rw [List.filter_map, List.filter_filter]
    congr 2
    funext ⟨m, place⟩
    have fewer : m.isIn (view.members.filter (stays departed crashed)) = true →
        m.isIn view.members = true := Member.isIn_of_subset List.filter_sublist.subset
    simp only [Function.comp, contains, Member.isIn_append]
    cases left : m.isIn (view.members.filter (stays departed crashed)) with
    | false => simp
    | true => simp [fewer left]
  rw [members_successor_eq, List.filter_append, old, List.nil_append, List.filter_map]
  exact congrArg _ new

/-- The members that the next view does not have are those who departed or crashed and did not join. -/
theorem went_eq : view.members.filter (!(view.successor creator joined departed crashed).contains ·) =
    view.members.filter fun m => !stays departed crashed m && !m.isIn joined := by
  apply List.filter_congr
  intro m member
  have found : (view.successor creator joined departed crashed).contains m =
      (m.isIn (view.members.filter (stays departed crashed)) || m.isIn joined) :=
    isIn_foldl_enrol (view.id + 1) joined _ m
  rw [found, isIn_staying member, Bool.not_or]

/-! ### What is told -/

theorem coordinatorEvent_eq (previous current : Option Member) :
    coordinatorEvent previous current = announcement previous current := by
  cases current with
  | none => rfl
  | some leader =>
    cases previous with
    | none => rfl
    | some old => simp [coordinatorEvent, sameCoordinator, announcement, Member.same]

/-- Who is gone crashed exactly if somebody said so, in whatever words. -/
theorem losses_eq {view : View} {gone : List Member} (creator : Member)
    (joined departed crashed : List Member)
    (members : gone ⊆ view.members) :
    (gone.map fun m => if m.isIn (view.successor creator joined departed crashed).crashed
      then Event.crashed m else .left m) = gone.map (loss crashed) := by
  apply List.map_congr_left
  intro m member
  have present : view.contains m = true := Member.isIn_of_mem (members member)
  have told : m.isIn (view.successor creator joined departed crashed).crashed = m.isIn crashed := by
    rw [Bool.eq_iff_iff, crashed_successor, and_iff_right present]
  rw [told]
  rfl

/-- The next view has those who stay, as they are, and then the joiners that are new besides them, stamped
with its number; it names its own members that departed and those that crashed as the view before describes
them. Whoever moves on to it is told of those who came, of those who went and how, of another coordinator,
and of the view, in this order. -/
theorem successor_told :
    let next := view.successor creator joined departed crashed
    let staying := view.members.filter (stays departed crashed)
    let came := next.members.filter (!view.contains ·)
    let went := view.members.filter (!next.contains ·)
    next.members = staying ++ (newcomers staying joined).map (·.withViewId next.id) ∧
      next.shutdown = view.members.filter (·.isIn departed) ∧
      next.crashed = view.members.filter (·.isIn crashed) ∧
      next.diff (some view) = came.map .joined ++ went.map (loss crashed) ++
        announcement view.coordinator next.coordinator ++ [.installed next] ∧
      came = (newcomers view.members joined).map (·.withViewId next.id) ∧
      went = view.members.filter fun m => !stays departed crashed m && !m.isIn joined := by
  intro next staying came went
  refine ⟨?_, rfl, rfl, ?_, ?_, ?_⟩
  · exact members_successor_eq view creator joined departed crashed
  · rw [diff, coordinatorEvent_eq, losses_eq creator joined departed crashed List.filter_sublist.subset]
  · exact came_eq view creator joined departed crashed
  · exact went_eq view creator joined departed crashed

end

end Cohort.View
