import Cohort.Proofs.Health.Decline
import Cohort.Proofs.Member.Order

/-! A detector keeps its table in the order of the members' identities. So whoever enters the table
does so beside those who are followed already, and a view that a member stays in leaves its health as
it is. -/

namespace Cohort.Detector

namespace Table

/-- The keys go up, each before all that follow. -/
def Ordered (table : Table) : Prop := (table.map (·.1)).Pairwise fun a b => a.compare b = .lt

theorem mem_enter {table : Table} {m key : Member} (member : key ∈ (table.enter m).map (·.1)) :
    key = m ∨ key ∈ table.map (·.1) := by
  induction table with
  | nil => exact Or.inl (List.mem_singleton.mp member)
  | cons entry rest ih =>
    obtain ⟨first, h⟩ := entry
    simp only [enter] at member
    split at member
    · simpa using member
    · exact Or.inr member
    · rcases List.mem_cons.mp member with rfl | further
      · exact Or.inr List.mem_cons_self
      · exact (ih further).imp_right (List.mem_cons_of_mem first)

theorem ordered_enter {table : Table} (ordered : table.Ordered) (m : Member) :
    (table.enter m).Ordered := by
  induction table with
  | nil => exact List.pairwise_singleton _ m
  | cons entry rest ih =>
    obtain ⟨first, h⟩ := entry
    obtain ⟨before, later⟩ := List.pairwise_cons.mp ordered
    simp only [enter]
    split
    · rename_i less
      refine List.pairwise_cons.mpr ⟨fun key member => ?_, ordered⟩
      rcases List.mem_cons.mp member with rfl | further
      · exact less
      · exact Std.TransCmp.lt_trans less (before key further)
    · exact ordered
    · rename_i greater
      refine List.pairwise_cons.mpr ⟨fun key member => ?_, ih later⟩
      rcases mem_enter member with rfl | further
      · exact Std.OrientedCmp.lt_of_gt greater
      · exact before key further

/-- Whoever goes before all the keys goes before everybody who is found under one of them. -/
theorem lt_of_known {table : Table} {m k : Member} {h : Health}
    (before : ∀ key ∈ table.map (·.1), m.compare key = .lt) (known : table.get? k = some h) :
    m.compare k = .lt := by
  induction table with
  | nil => contradiction
  | cons entry rest ih =>
    obtain ⟨first, found⟩ := entry
    rw [get?_cons] at known
    split at known
    · rename_i alike
      rw [← Member.compare_right alike m]
      exact before first List.mem_cons_self
    · exact ih (fun key member => before key (List.mem_cons_of_mem first member)) known

/-- Entering a member leaves the entries that are there as they are. -/
theorem get?_enter_of_some {table : Table} (ordered : table.Ordered) (m : Member) {k : Member}
    {h : Health} (known : table.get? k = some h) : (table.enter m).get? k = some h := by
  induction table with
  | nil => contradiction
  | cons entry rest ih =>
    obtain ⟨first, found⟩ := entry
    obtain ⟨before, later⟩ := List.pairwise_cons.mp ordered
    simp only [enter]
    split
    · rename_i less
      have ahead : m.compare k = .lt := by
        refine lt_of_known (fun key member => ?_) known
        rcases List.mem_cons.mp member with rfl | further
        · exact less
        · exact Std.TransCmp.lt_trans less (before key further)
      rw [get?_cons, if_neg (by simp [Member.not_same_of_lt ahead])]
      exact known
    · exact known
    · rw [get?_cons] at known ⊢
      split at known
      · rename_i alike
        rw [if_pos alike]
        exact known
      · rename_i other
        rw [if_neg other]
        exact ih later known

theorem ordered_filter {table : Table} (ordered : table.Ordered) (p : Member × Health → Bool) :
    Ordered (table.filter p) :=
  List.Pairwise.sublist (List.filter_sublist.map _) ordered

end Table

/-- What holds of a table and is kept by entering members is kept by following a view. -/
theorem track_induction {motive : Table → Prop} (self : Member) (view : View) {table : Table}
    (begins : motive table) (enters : ∀ t m, motive t → motive (t.enter m)) :
    motive (track self table view) := by
  unfold track
  generalize view.members = members
  induction members generalizing table with
  | nil => exact begins
  | cons m rest ih =>
    refine ih ?_
    dsimp only
    split
    · exact begins
    · exact enters table m begins

theorem ordered_track (self : Member) (view : View) {table : Table} (ordered : table.Ordered) :
    (track self table view).Ordered :=
  track_induction self view ordered fun _ m before => Table.ordered_enter before m

theorem get?_track_of_some (self : Member) (view : View) {table : Table} (ordered : table.Ordered)
    {k : Member} {h : Health} (known : table.get? k = some h) :
    (track self table view).get? k = some h := by
  have kept := track_induction (motive := fun t => t.Ordered ∧ t.get? k = some h) self view
    ⟨ordered, known⟩ fun _ m before =>
      ⟨Table.ordered_enter before.1 m, Table.get?_enter_of_some before.1 m before.2⟩
  exact kept.2

theorem health_install {d : Detector} {view : View} (newer : ¬ view.id < d.view.id) :
    (d.install view).health = track d.self (d.health.filter (view.contains ·.1)) view := by
  simp only [install, newer, if_false]
  rfl

/-- Whoever stays is as well, or as unwell, as before. -/
theorem get?_install_of_some {d : Detector} (ordered : d.health.Ordered) {view : View}
    (newer : ¬ view.id < d.view.id) {k : Member} {h : Health} (stays : view.contains k = true)
    (known : d.health.get? k = some h) : (d.install view).health.get? k = some h := by
  rw [health_install newer]
  refine get?_track_of_some _ _ (Table.ordered_filter ordered _) ?_
  rw [Table.get?_filter d.health view.contains k fun a b alike => Member.isIn_congr alike _,
    if_pos stays]
  exact known

/-! ### Every move -/

theorem ordered_of_keys {a b : Table} (keys : b.map (·.1) = a.map (·.1)) (ordered : a.Ordered) :
    b.Ordered := by
  unfold Table.Ordered
  rw [keys]
  exact ordered

theorem ordered_create (self : Member) (view : View) (settings : Settings) (policy : LossPolicy)
    (now : Nat) : (create self view settings policy now).health.Ordered :=
  ordered_track self view .nil

theorem ordered_install {d : Detector} (ordered : d.health.Ordered) (view : View) :
    (d.install view).health.Ordered := by
  by_cases older : view.id < d.view.id
  · rw [install_older older]
    exact ordered
  · rw [health_install older]
    exact ordered_track _ _ (Table.ordered_filter ordered _)

/-- A round asks those who are willing, whatever the rota. -/
theorem mem_addressees (d : Detector) (m : Member) :
    m ∈ d.addressees ↔ ∃ h, (m, h) ∈ d.health ∧ wantsHeartbeat h = true := by
  have perm := d.settings.rota.perm d.timers.nextId ((d.health.filter (wantsHeartbeat ·.2)).map (·.1))
  rw [addressees, perm.mem_iff]
  simp

/-- A round asks nobody twice. -/
theorem addressees_apart {d : Detector} (ordered : d.health.Ordered) :
    d.addressees.Pairwise fun a b => a.same b = false := by
  have keys := Table.ordered_filter ordered (wantsHeartbeat ·.2)
  have listed := List.Pairwise.imp Member.not_same_of_lt keys
  have perm := d.settings.rota.perm d.timers.nextId ((d.health.filter (wantsHeartbeat ·.2)).map (·.1))
  refine (perm.pairwise_iff fun {a b} apart => ?_).mpr listed
  rw [Member.same_comm]
  exact apart

theorem ordered_markFailed {d : Detector} (ordered : d.health.Ordered) (m : Member) (h : Health) :
    (d.markFailed m h).health.Ordered :=
  ordered_of_keys (markFailed_declines d m h).continues.keys ordered

theorem ordered_removeFailed {d : Detector} (ordered : d.health.Ordered) (failed : List Member) :
    (d.removeFailed failed).1.health.Ordered := by
  rcases removeFailed_cases d failed with ⟨unchanged, -⟩ | ⟨c, -, -, installed⟩
  · rw [unchanged]
    exact ordered
  · rw [installed]
    exact ordered_install ordered _

theorem ordered_conclude {d : Detector} (ordered : d.health.Ordered) :
    d.conclude.1.health.Ordered := by
  rcases conclude_verdict d with ⟨-, same⟩ | ⟨-, -, same⟩ | ⟨-, -, same⟩
  · rw [same]
    exact ordered
  · rw [same]
    exact ordered_of_keys (declare_declines d).continues.keys ordered
  · have undivided : d.undivided.health.Ordered := ordered
    rw [same]
    exact ordered_removeFailed undivided _

theorem ordered_move {d : Detector} (ordered : d.health.Ordered) (x : Move) :
    (d.move x).1.health.Ordered := by
  cases happening d x with
  | declines declines => exact ordered_of_keys declines.continues.keys ordered
  | recovers e m answer declines moved =>
    have healed : (e.recover m).checkHealed.health = (e.recover m).health := by
      unfold checkHealed
      split <;> rfl
    have keys : (e.recover m).health.map (·.1) = e.health.map (·.1) := by
      simp only [recover, update, keys_update]
    rw [moved]
    refine ordered_of_keys ?_ ordered
    dsimp only
    rw [healed, keys]
    exact declines.continues.keys
  | installs view asked moved =>
    rw [moved]
    exact ordered_install ordered view
  | fails m request h o fails known state check same moved =>
    rw [moved]
    exact ordered_conclude (ordered_markFailed ordered m h)

theorem ordered_after {d : Detector} (ordered : d.health.Ordered) (moves : List Move) :
    (d.after moves).health.Ordered := by
  induction moves generalizing d with
  | nil => exact ordered
  | cons x rest ih => exact ih (ordered_move ordered x)

end Cohort.Detector
