import Cohort.Membership.Manager
import Cohort.Proofs.Health.Run
import Cohort.Proofs.View.Successor

/-! How a member's state goes on: it stays who it is, and its view is replaced by newer ones only. -/

namespace Cohort.Manager

/-- The view has the member in it, and the detector watches for no other. -/
structure Sound (m : Manager) : Prop where
  present : ∀ v, m.view = some v → v.contains m.self = true
  watched : ∀ d, m.detector = some d → d.self.same m.self = true

/-- One state of a member goes on to another. -/
structure Grows (m n : Manager) : Prop where
  self : n.self.same m.self = true
  view : ∀ v, m.view = some v → ∃ w, n.view = some w ∧ (w = v ∨ v.id < w.id)
  sound : m.Sound → n.Sound

theorem Grows.refl (m : Manager) : Grows m m where
  self := Member.same_refl m.self
  view v known := ⟨v, known, Or.inl rfl⟩
  sound := id

theorem Grows.trans {m n k : Manager} (first : Grows m n) (second : Grows n k) : Grows m k where
  self := Member.same_trans second.self first.self
  view v known := by
    obtain ⟨w, found, ahead⟩ := first.view v known
    obtain ⟨u, last, further⟩ := second.view w found
    refine ⟨u, last, ?_⟩
    rcases ahead with rfl | newer
    · exact further
    · rcases further with rfl | later
      · exact Or.inr newer
      · exact Or.inr (Int32.lt_trans newer later)
  sound known := second.sound (first.sound known)

/-- Two states agree on all that changes of the view depend on. -/
structure Alike (m n : Manager) : Prop where
  self : n.self = m.self
  view : n.view = m.view
  detector : n.detector = m.detector

theorem Alike.trans {m n k : Manager} (first : Alike m n) (second : Alike n k) : Alike m k :=
  ⟨second.self.trans first.self, second.view.trans first.view, second.detector.trans first.detector⟩

theorem Alike.grows {m n : Manager} (alike : Alike m n) : Grows m n where
  self := by rw [alike.self, Member.same_refl]
  view v known := ⟨v, alike.view.trans known, Or.inl rfl⟩
  sound known := by
    refine ⟨fun v found => ?_, fun d found => ?_⟩
    · rw [alike.self]
      exact known.present v (alike.view ▸ found)
    · rw [alike.self]
      exact known.watched d (alike.detector ▸ found)

section
variable (m : Manager)

theorem notice_alike (n : Notice) : Alike m (m.notice n) := ⟨rfl, rfl, rfl⟩

theorem count_alike (c : Counter) : Alike m (m.count c) := ⟨rfl, rfl, rfl⟩

theorem feed_alike (event : Detector.Event) : Alike m (m.feed event) := by
  unfold feed
  split <;> exact ⟨rfl, rfl, rfl⟩

theorem notices_alike (events : List View.Event) :
    Alike m (events.foldl (fun m e => m.notice (.event e)) m) := by
  induction events generalizing m with
  | nil => exact ⟨rfl, rfl, rfl⟩
  | cons e rest ih => exact (notice_alike m _).trans (ih _)

theorem feeds_alike (events : List Detector.Event) : Alike m (events.foldl feed m) := by
  induction events generalizing m with
  | nil => exact ⟨rfl, rfl, rfl⟩
  | cons e rest ih => exact (feed_alike m e).trans (ih _)

end

/-! ### The detector -/

theorem settle_detector {m : Manager} {d e : Detector} (known : m.detector = some d)
    (self : e.self = d.self) : Grows m { m with detector := some e } where
  self := Member.same_refl m.self
  view v found := ⟨v, found, Or.inl rfl⟩
  sound sound := by
    refine ⟨sound.present, fun d' found => ?_⟩
    rw [← Option.some.inj found, self]
    exact sound.watched d known

theorem stopDetector_grows (m : Manager) : Grows m m.stopDetector where
  self := Member.same_refl m.self
  view v found := ⟨v, found, Or.inl rfl⟩
  sound sound := ⟨sound.present, fun d found => by simp [stopDetector] at found⟩

theorem pass_grows (m : Manager) : Grows m m.pass := by
  unfold pass
  cases known : m.detector with
  | none => exact .refl m
  | some d =>
    let passed := (m.clocked d).expire
    have handed := feeds_alike { m with detector := some passed.1 } passed.2
    have kept : passed.1.self = d.self := rfl
    exact (settle_detector known kept).trans handed.grows

theorem startDetector_fields (m : Manager) (view : View) :
    (m.startDetector view).view = m.view ∧ (m.startDetector view).self = m.self ∧
      ∀ d, (m.startDetector view).detector = some d → m.detector = some d ∨ d.self = m.self := by
  unfold startDetector
  split
  · refine ⟨rfl, rfl, fun d known => Or.inr ?_⟩
    rw [← Option.some.inj known]
    rfl
  · exact ⟨rfl, rfl, fun d known => Or.inl known⟩

/-! ### Views -/

theorem get?_same {view : View} {m found : Member} (known : view.get? m = some found) :
    found.same m = true := by
  rw [Member.same_comm]
  exact List.find?_some known

theorem resolved_same (m : Manager) (view : View) : (m.resolved view).self.same m.self = true := by
  unfold resolved
  cases known : view.get? m.self with
  | none => exact Member.same_refl m.self
  | some found => exact get?_same known

/-- What an installation does to the view, the identity and the detector. -/
theorem installed_fields (m : Manager) (previous : Option View) (view : View) :
    (m.installed previous view).view = m.view ∧
      (m.installed previous view).self = (m.resolved view).self ∧
      ∀ d, (m.installed previous view).detector = some d →
        m.detector = some d ∨ d.self = (m.resolved view).self := by
  let begun : Manager := { m.resolved view with
    departed := m.departed ++ view.crashed ++ view.shutdown
    statistics := ((m.statistics.count .viewsInstalled).add .membersCrashed
      view.crashed.length).add .membersDeparted view.shutdown.length }
  let watching := previous.elim (begun.startDetector view) fun _ => begun.feed (.viewInstalled view)
  have announced := notices_alike watching (view.diff previous)
  have installs : Alike watching (m.installed previous view) := by
    cases previous with
    | none => exact announced
    | some previous =>
      unfold installed
      dsimp only
      split
      · split
        · exact announced
        · exact announced.trans (notice_alike _ _)
      · exact announced
  have watches : watching.view = m.view ∧ watching.self = (m.resolved view).self ∧
      ∀ d, watching.detector = some d → m.detector = some d ∨ d.self = (m.resolved view).self := by
    cases previous with
    | none => exact startDetector_fields begun view
    | some previous =>
      have fed := feed_alike begun (.viewInstalled view)
      exact ⟨fed.view, fed.self, fun d known => Or.inl (fed.detector.symm.trans known)⟩
  obtain ⟨sameView, sameSelf, detectors⟩ := watches
  exact ⟨installs.view.trans sameView, installs.self.trans sameSelf,
    fun d known => detectors d (installs.detector.symm.trans known)⟩

/-- A view with the member in it goes on from whatever view there was before. -/
theorem installed_grows {m : Manager} {previous : Option View} {view : View}
    (present : view.contains m.self = true) (newer : ∀ v, m.view = some v → v.id < view.id) :
    Grows m (({ m with view := some view } : Manager).installed previous view) := by
  obtain ⟨sameView, sameSelf, detectors⟩ :=
    installed_fields { m with view := some view } previous view
  have self :
      (({ m with view := some view } : Manager).installed previous view).self.same m.self = true := by
    rw [sameSelf]
    exact resolved_same { m with view := some view } view
  refine ⟨self, fun v known => ⟨view, sameView, Or.inr (newer v known)⟩, fun sound => ⟨?_, ?_⟩⟩
  · intro v known
    rw [sameView] at known
    rw [← Option.some.inj known, View.contains_congr self]
    exact present
  · intro d known
    rcases detectors d known with old | new
    · exact Member.same_trans (sound.watched d old) (by rw [Member.same_comm]; exact self)
    · rw [new, sameSelf]
      exact Member.same_refl _

theorem expel_grows (m : Manager) (view : View) : Grows m (m.expel view) := by
  have leaves : Alike m.stopDetector (({ m.stopDetector with phase := .expelled } : Manager).notice
      (.event (.expelled view))) := ⟨rfl, rfl, rfl⟩
  have stopped := (stopDetector_grows m).trans leaves.grows
  unfold expel
  split
  · exact stopped
  · exact stopped
  · exact .refl m
  · exact .refl m

theorem adopt_grows (m : Manager) (view : View) : Grows m (m.adopt view) := by
  unfold adopt
  cases known : m.view with
  | none =>
    dsimp only
    split
    · rename_i present
      exact installed_grows present (by simp [known])
    · exact .refl m
  | some current =>
    dsimp only
    split
    · exact .refl m
    · rename_i newer
      split
      · rename_i present
        refine installed_grows present fun v found => ?_
        rw [← Option.some.inj (known.symm.trans found)]
        exact Int32.not_le.mp newer
      · exact expel_grows m view

/-- A newer view with the member in it is installed. -/
theorem adopt_view {m : Manager} {current view : View} (known : m.view = some current)
    (newer : current.id < view.id) (present : view.contains m.self = true) :
    (m.adopt view).view = some view := by
  have ahead : ¬ view.id ≤ current.id := Int32.not_le.mpr newer
  have adopts : m.adopt view =
      ({ m with view := some view } : Manager).installed (some current) view := by
    simp only [adopt, known, ahead, present, if_false, if_true]
  rw [adopts]
  exact (installed_fields _ _ _).1

end Cohort.Manager
