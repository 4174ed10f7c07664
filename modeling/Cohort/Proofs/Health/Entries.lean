import Cohort.Proofs.Health.Ledger
import Cohort.Proofs.Health.Order

/-! The ledger of a detector: the entries for the requests that wait for each member's answer, and for the
round of heartbeats to come. What happens to one member's health happens to its entries and to no
others, and following somebody new makes none. -/

namespace Cohort.Detector

/-- The ledger's entries for a member's requests. -/
def Health.held (who : Identity) (h : Health) : List (Nat × Expiry) :=
  (h.heartbeat.toList.map fun o => (o.timer, .heartbeat who o.request)) ++
    h.finalCheck.toList.map fun o => (o.timer, .finalCheck who o.request)

def Table.held (table : Table) : List (Nat × Expiry) :=
  table.flatMap fun (key, h) => h.held key.identity

/-- The detector's ledger: the round of heartbeats to come, and everybody's requests. -/
def held (d : Detector) : List (Nat × Expiry) :=
  d.tick.toList.map (·, .round) ++ d.health.held

/-- All timers that the detector holds. -/
def slots (d : Detector) : List Nat := d.tick.toList ++ d.health.flatMap (·.2.timers)

theorem Health.timers_eq (h : Health) (who : Identity) : h.timers = (h.held who).map (·.1) := by
  simp [Health.timers, Health.held, List.map_append, Function.comp_def]

theorem Table.timers_eq (table : Table) : table.flatMap (·.2.timers) = table.held.map (·.1) := by
  unfold Table.held
  rw [List.map_flatMap]
  exact List.flatMap_congr fun entry _ => entry.2.timers_eq _

theorem slots_eq (d : Detector) : d.slots = d.held.map (·.1) := by
  unfold slots held
  rw [Table.timers_eq, List.map_append, List.map_map]
  exact congrArg (· ++ _) (List.map_id _).symm

namespace Table

variable {table : Table} {m : Member} {h : Health}

theorem update_of_none (unknown : table.get? m = none) (f : Health → Health) :
    table.update m f = table := by
  induction table with
  | nil => rfl
  | cons entry rest ih =>
    obtain ⟨key, h⟩ := entry
    rw [get?_cons] at unknown
    cases alike : key.same m with
    | true => simp [alike] at unknown
    | false =>
      rw [alike] at unknown
      exact List.cons_eq_cons.mpr ⟨by simp [alike], ih (by simpa using unknown)⟩

theorem update_update (table : Table) (m : Member) (f g : Health → Health) :
    (table.update m f).update m g = table.update m (g ∘ f) := by
  unfold update
  rw [List.map_map]
  refine List.map_congr_left fun entry _ => ?_
  obtain ⟨key, h⟩ := entry
  cases alike : key.same m <;> simp [alike]

/-- Nobody has two places in an ordered table. -/
theorem Ordered.rest_unknown {key : Member} {rest : Table} (ordered : Ordered ((key, h) :: rest))
    (alike : key.same m = true) : rest.get? m = none := by
  cases known : rest.get? m with
  | none => rfl
  | some found =>
    have before : key.compare m = .lt := lt_of_known (List.pairwise_cons.mp ordered).1 known
    rw [Member.not_same_of_lt before] at alike
    contradiction

theorem get?_of_mem (ordered : table.Ordered) {key : Member} (member : (key, h) ∈ table) :
    table.get? key = some h := by
  induction table with
  | nil => cases member
  | cons entry rest ih =>
    obtain ⟨first, found⟩ := entry
    obtain ⟨before, later⟩ := List.pairwise_cons.mp ordered
    rw [get?_cons]
    rcases List.mem_cons.mp member with same | further
    · cases same
      rw [if_pos (Member.same_refl _)]
    · have apart := Member.not_same_of_lt (before key (List.mem_map.mpr ⟨_, further, rfl⟩))
      rw [apart]
      exact ih later further

/-- What happens to one member's health happens to its entries, and to no others. -/
theorem held_split (ordered : table.Ordered) (known : table.get? m = some h) :
    ∃ others, table.held.Perm (h.held m.identity ++ others) ∧
      ∀ f, (table.update m f).held.Perm ((f h).held m.identity ++ others) := by
  induction table with
  | nil => cases known
  | cons entry rest ih =>
    obtain ⟨key, first⟩ := entry
    have split : ∀ f, update ((key, first) :: rest) m f
        = (if key.same m then (key, f first) else (key, first)) :: update rest m f := fun _ => rfl
    cases alike : key.same m with
    | true =>
      rw [get?_cons, if_pos alike] at known
      cases known
      rw [← (Member.same_iff key m).mp alike]
      refine ⟨held rest, .refl _, fun f => ?_⟩
      rw [split, update_of_none (ordered.rest_unknown alike), if_pos alike]
      exact .refl _
    | false =>
      rw [get?_cons, if_neg (by rw [alike]; decide)] at known
      obtain ⟨others, before, after⟩ := ih (List.pairwise_cons.mp ordered).2 known
      refine ⟨first.held key.identity ++ others, ?_, fun f => ?_⟩
      · exact (before.append_left _).trans (List.perm_append_comm_assoc _ _ _)
      · rw [split, if_neg (by rw [alike]; decide)]
        exact ((after f).append_left _).trans (List.perm_append_comm_assoc _ _ _)

theorem held_enter (table : Table) (m : Member) : (table.enter m).held = table.held := by
  induction table with
  | nil => rfl
  | cons entry rest ih =>
    obtain ⟨key, h⟩ := entry
    simp only [enter]
    split
    · rfl
    · rfl
    · exact congrArg (h.held key.identity ++ ·) ih

/-- The entries of those who go and of those who stay. -/
theorem held_partition (table : Table) (stays : Member → Bool) :
    table.held.Perm (held (table.filter (!stays ·.1)) ++ held (table.filter (stays ·.1))) := by
  have parts := List.filter_append_perm (fun entry : Member × Health => stays entry.1) table
  have entries := parts.symm.flatMap_right fun (key, h) => Health.held key.identity h
  rw [List.flatMap_append] at entries
  exact entries.trans List.perm_append_comm

/-- Whoever enters a table is in it afterwards, beside those who were. -/
theorem isSome_get?_enter (table : Table) (m k : Member) :
    ((table.enter m).get? k).isSome = (m.same k || (table.get? k).isSome) := by
  induction table with
  | nil => cases alike : m.same k <;> simp [enter, get?_cons, alike]
  | cons entry rest ih =>
    obtain ⟨key, h⟩ := entry
    simp only [enter]
    cases order : m.compare key with
    | lt => cases alike : m.same k <;> simp [get?_cons, alike]
    | eq =>
      rw [Member.same_left (Member.same_of_compare order), get?_cons]
      cases key.same k <;> simp
    | gt =>
      rw [get?_cons, get?_cons]
      cases found : key.same k with
      | true => simp
      | false => simpa [found] using ih

/-- A ledger's entry belongs to the member that it names. -/
theorem get?_of_held (ordered : table.Ordered) {p : Expiry} (member : p ∈ table.held.map (·.2)) :
    ∃ key h, table.get? key = some h ∧ p ∈ (h.held key.identity).map (·.2) := by
  obtain ⟨entry, held, rfl⟩ := List.mem_map.mp member
  obtain ⟨⟨key, h⟩, found, own⟩ := List.mem_flatMap.mp held
  exact ⟨key, h, get?_of_mem ordered found, List.mem_map.mpr ⟨entry, own, rfl⟩⟩

theorem awaits_of_heartbeat (ordered : table.Ordered) {request : UInt64}
    (member : .heartbeat m.identity request ∈ table.held.map (·.2)) :
    ∃ h, table.get? m = some h ∧ awaits h.heartbeat request = true := by
  obtain ⟨key, h, known, own⟩ := get?_of_held ordered member
  obtain ⟨o, waits, same, asked⟩ : ∃ o, h.heartbeat = some o ∧ key.identity = m.identity ∧
      o.request = request := by simpa [Health.held] using own
  have alike : m.same key = true := (Member.same_iff m key).mpr same.symm
  exact ⟨h, (get?_congr alike).trans known, (awaits_iff _ _).mpr ⟨o, waits, asked⟩⟩

theorem awaits_of_finalCheck (ordered : table.Ordered) {request : UInt64}
    (member : .finalCheck m.identity request ∈ table.held.map (·.2)) :
    ∃ h, table.get? m = some h ∧ awaits h.finalCheck request = true := by
  obtain ⟨key, h, known, own⟩ := get?_of_held ordered member
  obtain ⟨o, waits, same, asked⟩ : ∃ o, h.finalCheck = some o ∧ key.identity = m.identity ∧
      o.request = request := by simpa [Health.held] using own
  have alike : m.same key = true := (Member.same_iff m key).mpr same.symm
  exact ⟨h, (get?_congr alike).trans known, (awaits_iff _ _).mpr ⟨o, waits, asked⟩⟩

end Table

theorem held_track (self : Member) (table : Table) (view : View) :
    (track self table view).held = table.held :=
  track_induction (motive := fun t => t.held = table.held) self view rfl fun t m same =>
    (t.held_enter m).trans same

theorem isSome_get?_track (self : Member) (table : Table) (view : View) (k : Member) :
    ((track self table view).get? k).isSome = true ↔
      (table.get? k).isSome = true ∨ view.contains k = true ∧ self.same k = false := by
  have members : ∀ (members : List Member) (t : Table),
      ((members.foldl (fun t m => if m.same self then t else t.enter m) t).get? k).isSome = true ↔
        (t.get? k).isSome = true ∨ k.isIn members = true ∧ self.same k = false := by
    intro members
    induction members with
    | nil => simp [Member.isIn]
    | cons m rest ih =>
      intro t
      rw [List.foldl_cons, ih]
      have isIn : k.isIn (m :: rest) = (k.same m || k.isIn rest) := rfl
      rw [isIn]
      cases own : m.same self with
      | true =>
        have apart : k.same m = true → self.same k = true := fun alike => by
          rw [Member.same_comm, Member.same_left alike]
          exact own
        cases alike : k.same m with
        | true => simp [apart alike]
        | false => simp
      | false =>
        have apart : k.same m = true → self.same k = false := fun alike => by
          rw [Member.same_comm, Member.same_left alike]
          exact own
        rw [if_neg (by decide), Table.isSome_get?_enter, Member.same_comm m k]
        cases alike : k.same m with
        | true => simp [apart alike]
        | false => simp
  exact members view.members table

@[simp] theorem Health.heartbeat_report (h : Health) (reporter : Member) :
    (h.report reporter).heartbeat = h.heartbeat := by
  unfold report
  split <;> rfl

/-- A report is no request. -/
theorem Health.held_report (h : Health) (reporter : Member) (who : Identity) :
    (h.report reporter).held who = h.held who := by
  unfold held
  rw [heartbeat_report, (report_gentle reporter h).2]

end Cohort.Detector
