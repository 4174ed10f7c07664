import Cohort.Health.Detector
import Cohort.Proofs.Member.Identity

/-! What a table of healths answers after each operation on it. Entries are looked up by identity, so
every answer depends on the identity of the member that is asked for and on nothing else of it. -/

namespace Cohort.Detector.Table

variable {table : Table} {m k : Member}

@[simp] theorem get?_nil : get? [] k = none := rfl

theorem get?_cons (m : Member) (h : Health) (rest : Table) (k : Member) :
    get? ((m, h) :: rest) k = if m.same k then some h else get? rest k := by
  simp only [get?, List.find?_cons]
  cases m.same k <;> rfl

theorem get?_congr (alike : m.same k = true) : table.get? m = table.get? k := by
  induction table with
  | nil => rfl
  | cons entry rest ih =>
    obtain ⟨key, h⟩ := entry
    simp only [get?_cons, ih, Member.same_right alike key]

theorem get?_update (table : Table) (m k : Member) (f : Health → Health) :
    (table.update m f).get? k = if k.same m then (table.get? k).map f else table.get? k := by
  induction table with
  | nil => simp [update]
  | cons entry rest ih =>
    obtain ⟨key, h⟩ := entry
    have split : update ((key, h) :: rest) m f
        = (if key.same m then (key, f h) else (key, h)) :: update rest m f := rfl
    rw [split]
    by_cases found : key.same k = true
    · have chosen : key.same m = k.same m := Member.same_left found m
      cases same : k.same m <;> simp [get?_cons, chosen, same, found]
    · cases key.same m <;> simp [get?_cons, found, ih]

/-- A function of the entries that leaves the keys alone acts on every answer. -/
theorem get?_map (table : Table) (f : Health → Health) (k : Member) :
    get? (table.map fun (key, h) => (key, f h)) k = (table.get? k).map f := by
  induction table with
  | nil => rfl
  | cons entry rest ih =>
    obtain ⟨key, h⟩ := entry
    cases found : key.same k <;> simp [get?_cons, found, ih]

/-- A choice of entries by identity chooses the answers. -/
theorem get?_filter (table : Table) (p : Member → Bool) (k : Member)
    (byIdentity : ∀ a b : Member, a.same b = true → p a = p b) :
    get? (table.filter (p ·.1)) k = if p k then table.get? k else none := by
  induction table with
  | nil => simp
  | cons entry rest ih =>
    obtain ⟨key, h⟩ := entry
    by_cases found : key.same k = true
    · have chosen := byIdentity key k found
      cases keep : p k <;> simp_all [get?_cons]
    · cases keep : p key <;> simp_all [get?_cons]

/-- Entering a member changes no answer but its own, and that one only to a healthy one. -/
theorem get?_enter (table : Table) (m k : Member) :
    (table.enter m).get? k = table.get? k ∨ m.same k = true ∧ (table.enter m).get? k = some {} := by
  induction table with
  | nil => cases found : m.same k <;> simp [enter, get?_cons, found]
  | cons entry rest ih =>
    obtain ⟨key, h⟩ := entry
    simp only [enter]
    cases m.compare key with
    | lt => cases found : m.same k <;> simp [get?_cons, found]
    | eq => exact Or.inl rfl
    | gt =>
      cases found : key.same k with
      | true => simp [get?_cons, found]
      | false => simpa [get?_cons, found] using ih

end Table

/-- Tracking a view changes an answer only by entering healthy members of the view that are not the
detector's own. -/
theorem get?_track (self : Member) (view : View) (table : Table) (k : Member) :
    (track self table view).get? k = table.get? k ∨
      view.contains k = true ∧ self.same k = false ∧ (track self table view).get? k = some {} := by
  suffices steps : ∀ (members : List Member) (t : Table),
      let result := members.foldl (fun table m => if m.same self then table else table.enter m) t
      result.get? k = t.get? k ∨
        k.isIn members = true ∧ self.same k = false ∧ result.get? k = some {} from
    steps view.members table
  intro members
  induction members with
  | nil => exact fun _ => Or.inl rfl
  | cons m rest ih =>
    intro t
    have later : k.isIn rest = true → k.isIn (m :: rest) = true := by
      simp only [Member.isIn_iff, List.mem_cons]
      rintro ⟨x, member, alike⟩
      exact ⟨x, Or.inr member, alike⟩
    cases own : m.same self with
    | true =>
      rcases ih t with same | ⟨member, other, healthy⟩
      · exact Or.inl (by simpa [own] using same)
      · exact Or.inr ⟨later member, other, by simpa [own] using healthy⟩
    | false =>
      rcases ih (t.enter m) with same | ⟨member, other, healthy⟩
      · rcases t.get?_enter m k with kept | ⟨alike, healthy⟩
        · exact Or.inl (by simpa [own] using same.trans kept)
        · refine Or.inr ⟨?_, ?_, by simpa [own] using same.trans healthy⟩
          · exact (Member.isIn_iff k _).mpr ⟨m, by simp, by rw [Member.same_comm]; exact alike⟩
          · rw [Member.same_comm, ← Member.same_left alike, own]
      · exact Or.inr ⟨later member, other, by simpa [own] using healthy⟩

end Cohort.Detector
