import Cohort.Proofs.Membership.Restraint

/-! What a failure detector knows of the view of its member. As long as the member takes part in its
group, the detector has that view, or the news of it is the last that waits in the queue of events, or
else the detector is ahead, with a view of its own making. -/

namespace Cohort

/-- An actor takes what is sent to it, and is not asked to stop. -/
structure Actor.Serves {α : Type} (a : Actor α) : Prop where
  reachable : a.reachable = true
  wanted : a.stopRequested = false
  running : a.phase ≠ .stopped

namespace Detector

/-- How a detector with this much news to come stands to a view. -/
structure Hears (d : Detector) (view : View) (coming : List View) : Prop where
  last : coming.getLast? = some view ∨ coming = [] ∧ (d.view = view ∨ view.id < d.view.id)
  older : ∀ v ∈ coming, v.id ≤ view.id

section
variable {d : Detector}

theorem onFinalCheckFailed_view (d : Detector) (m : Member) (request : UInt64) :
    (d.onFinalCheckFailed m request).1.view = d.view ∨
      (∃ view, .installView view ∈ (d.onFinalCheckFailed m request).2) ∧
        (d.onFinalCheckFailed m request).1.view.id.toInt = d.view.id.toInt + 1 := by
  rcases onFinalCheckFailed_cases d m request with same | ⟨h, o, -, -, -, -, same⟩
  · exact Or.inl (congrArg (·.1.view) same)
  · rw [same]
    rcases conclude_cases (d.markFailed m h) with quiet | ⟨e, -, viewed, -, removal⟩
    · exact Or.inl quiet.view
    · have viewed : e.view = d.view := viewed
      rw [removal, ← viewed]
      rcases removeFailed_cases e ((d.markFailed m h).membersIn [.removed]) with
        ⟨unchanged, -⟩ | ⟨coordinator, -, -, installed⟩
      · exact Or.inl (congrArg Detector.view unchanged)
      · rw [installed]
        set view := e.view.successor e.self [] [] ((d.markFailed m h).membersIn [.removed])
        by_cases older : view.id < e.view.id
        · exact Or.inl (congrArg Detector.view (install_older older))
        · refine Or.inr ⟨⟨view, List.mem_singleton.mpr rfl⟩, ?_⟩
          rw [install_view older]
          -- After the last number comes the least, and a view with that would not be installed.
          refine View.toInt_next fun last => older ?_
          rw [View.successor_id, last]
          decide

/-- Without news a detector goes on with its view, unless it makes the next one itself. -/
theorem handle_view (d : Detector) {event : Event} (plain : event.view? = none) :
    (d.handle event).1.view = d.view ∨ (∃ view, .installView view ∈ (d.handle event).2) ∧
      (d.handle event).1.view.id.toInt = d.view.id.toInt + 1 := by
  cases event with
  | heartbeatTick => exact Or.inl (onTick_quiet d).view
  | heartbeatTimeout m request => exact Or.inl (onHeartbeatTimeout_quiet d m request).view
  | heartbeatResponse source request => exact Or.inl (onResponse_quiet d source request false).view
  | suspectReceived reporter suspects => exact Or.inl (onSuspects_quiet d reporter suspects).view
  | finalCheckResponse source request => exact Or.inl (onResponse_quiet d source request true).view
  | removeRequested requester m _ => exact Or.inl (onRemoveRequested_quiet d requester m).view
  | finalCheckTimeout m request | finalCheckFailed m request =>
    exact onFinalCheckFailed_view d m request
  | viewInstalled view => simp [Event.view?] at plain

/-- The event is the next of those to come, and the view that it brings is the next news. -/
theorem news_cons (event : Event) (rest : List Event) :
    news (event :: rest) = event.view?.toList ++ news rest := by
  cases brings : event.view? <;> simp [news, brings]

theorem handle_news (d : Detector) {event : Event} {brought : View}
    (brings : event.view? = some brought) : d.handle event = (d.install brought, []) := by
  cases event with
  | viewInstalled view =>
    cases brings
    rfl
  | _ => simp [Event.view?] at brings

theorem hears_handle {view : View} {event : Event} {rest : List Event}
    (hears : d.Hears view (news (event :: rest))) : (d.handle event).1.Hears view (news rest) := by
  rw [news_cons] at hears
  refine ⟨?_, fun v member => hears.older v (List.mem_append_right _ member)⟩
  cases brings : event.view? with
  | none =>
    rw [brings] at hears
    refine hears.last.imp_right fun ⟨nothing, stands⟩ => ⟨nothing, ?_⟩
    rcases handle_view d brings with kept | ⟨-, next⟩
    · rwa [kept]
    · refine Or.inr (Int32.lt_iff_toInt_lt.mpr ?_)
      rcases stands with rfl | ahead
      · omega
      · rw [Int32.lt_iff_toInt_lt] at ahead
        omega
  | some brought =>
    rw [brings] at hears
    rcases hears.last with last | ⟨none, -⟩
    · cases more : news rest with
      | cons => exact Or.inl (by simpa [more] using last)
      | nil =>
        obtain rfl : brought = view := by simpa [more] using last
        refine Or.inr ⟨rfl, ?_⟩
        rw [handle_news d brings]
        by_cases older : brought.id < d.view.id
        · rw [install_older older]
          exact Or.inr older
        · exact Or.inl (install_view older)
    · contradiction

/-- A detector that is not ahead gets ahead by one, and only with a view that it makes itself. -/
theorem handle_ahead {view : View} {event : Event} {rest : List Event}
    (hears : d.Hears view (news (event :: rest))) (near : d.view.id.toInt ≤ view.id.toInt) :
    (d.handle event).1.view.id.toInt ≤ view.id.toInt + 1 ∧
      ((∀ made, .installView made ∉ (d.handle event).2) →
        (d.handle event).1.view.id.toInt ≤ view.id.toInt) := by
  cases brings : event.view? with
  | none =>
    rcases handle_view d brings with kept | ⟨⟨made, wanted⟩, next⟩
    · rw [kept]
      exact ⟨by omega, fun _ => near⟩
    · exact ⟨by omega, fun tame => absurd wanted (tame made)⟩
  | some brought =>
    have older := hears.older brought (by rw [news_cons, brings]; exact List.mem_cons_self)
    have known : (d.install brought).view.id.toInt ≤ view.id.toInt := by
      by_cases behind : brought.id < d.view.id
      · rwa [install_older behind]
      · rw [install_view behind]
        exact Int32.le_iff_toInt_le.mp older
    rw [handle_news d brings]
    exact ⟨Int.le_trans known (by omega), fun _ => known⟩

end

end Detector

namespace Manager

/-- A member takes part in its group, or is on its way into it. -/
def Lives (m : Manager) : Prop := m.phase.stage < Phase.expelled.stage

/-- A living member's detector has its view, or will hear of it, or is ahead. -/
structure Informed (m : Manager) : Prop where
  watched : m.watched = true
  serves : m.watch.Serves
  viewless : m.view = none → m.detector = none ∧ Detector.news m.watch.inbox = []
  viewed : ∀ v, m.view = some v →
    ∃ d, m.detector = some d ∧ d.Uninformed ∧ d.Hears v (Detector.news m.watch.inbox)

/-- The detector is ahead by so much at most. -/
def Within (m : Manager) (lead : Int) : Prop :=
  ∀ v d, m.view = some v → m.detector = some d → d.view.id.toInt ≤ v.id.toInt + lead

section
variable {m n : Manager}

theorem open_of_lives (lives : Lives n) : n.phase ≠ .closed := by
  intro closed
  rw [Lives, closed] at lives
  contradiction

theorem Steady.lives (steady : Steady m n) (lives : Lives n) : Lives m :=
  Nat.lt_of_le_of_lt steady.life lives

theorem informed_of_same (informed : Informed m) (watched : n.watched = m.watched)
    (view : n.view = m.view) (detector : n.detector = m.detector) (serves : n.watch.Serves)
    (inbox : Detector.news n.watch.inbox = Detector.news m.watch.inbox) : Informed n where
  watched := watched.trans informed.watched
  serves := serves
  viewless none := by
    rw [detector, inbox]
    exact informed.viewless (view ▸ none)
  viewed v known := by
    rw [detector, inbox]
    exact informed.viewed v (view ▸ known)

theorem informed_steady (informed : Informed m) (steady : Steady m n) (lives : Lives n) :
    Informed n := by
  obtain ⟨detector, watched, events, fed, plain⟩ := steady.watching (open_of_lives lives)
  refine informed_of_same informed watched steady.view detector ?_ ?_
  · rw [fed]
    exact ⟨informed.serves.reachable, informed.serves.wanted, informed.serves.running⟩
  · rw [fed, Detector.news_append, plain, List.append_nil]

theorem within_steady {lead : Int} (within : Within m lead) (steady : Steady m n) (lives : Lives n) :
    Within n lead := by
  obtain ⟨detector, -⟩ := steady.watching (open_of_lives lives)
  intro v d known found
  exact within v d (steady.view ▸ known) (detector ▸ found)

/-- A view that is adopted is the last news. -/
theorem informed_adopt (informed : Informed m) (view : View) (lives : Lives (m.adopt view)) :
    Informed (m.adopt view) := by
  rcases adopt_cases m view with ignored | expels | installs
  · rwa [ignored]
  · rw [Lives, expels.phase] at lives
    contradiction
  · cases known : m.view with
    | none =>
      obtain ⟨watch, detector⟩ := installs.first known
      rw [informed.watched, if_pos rfl] at detector
      refine ⟨installs.watched.trans informed.watched, watch ▸ informed.serves, ?_, ?_⟩
      · intro none
        rw [installs.taken] at none
        contradiction
      · intro v taken
        cases installs.taken.symm.trans taken
        refine ⟨_, detector, Detector.uninformed_start _ _ _ _ _, ?_⟩
        rw [watch, (informed.viewless known).2]
        exact ⟨Or.inr ⟨rfl, Or.inl rfl⟩, fun v member => nomatch member⟩
    | some old =>
      obtain ⟨detector, watch⟩ := installs.later (by simp [known])
      have queued : (m.adopt view).watch =
          { m.watch with inbox := m.watch.inbox ++ [.viewInstalled view] } := by
        rw [watch, informed.watched, if_pos rfl, Actor.send, if_neg informed.serves.running]
      have news : Detector.news (m.adopt view).watch.inbox =
          Detector.news m.watch.inbox ++ [view] := by
        rw [queued, Detector.news_append]
        rfl
      refine ⟨installs.watched.trans informed.watched, ?_, ?_, ?_⟩
      · rw [queued]
        exact ⟨informed.serves.reachable, informed.serves.wanted, informed.serves.running⟩
      · intro none
        rw [installs.taken] at none
        contradiction
      · intro v taken
        cases installs.taken.symm.trans taken
        obtain ⟨d, found, uninformed, hears⟩ := informed.viewed old known
        refine ⟨d, detector.trans found, uninformed, ?_⟩
        rw [news]
        refine ⟨Or.inl List.getLast?_concat, fun u member => ?_⟩
        rcases List.mem_append.mp member with earlier | last
        · exact Int32.le_trans (hears.older u earlier) (Int32.le_of_lt (installs.newer old known))
        · rw [List.mem_singleton.mp last]
          exact Int32.le_refl _

theorem within_adopt {lead : Int} (informed : Informed m) (within : Within m lead)
    (room : 0 ≤ lead) (view : View) : Within (m.adopt view) lead := by
  rcases adopt_cases m view with ignored | expels | installs
  · rwa [ignored]
  · intro v d _ found
    rw [expels.detector] at found
    contradiction
  · intro v d taken found
    cases installs.taken.symm.trans taken
    cases known : m.view with
    | none =>
      have detector := (installs.first known).2
      rw [informed.watched, if_pos rfl, found] at detector
      cases detector
      exact Int.le_add_of_nonneg_right room
    | some old =>
      have detector := (installs.later (by simp [known])).1
      have before := within old d known (detector ▸ found)
      have newer := Int32.lt_iff_toInt_lt.mp (installs.newer old known)
      omega

theorem lives_of_adopt {view : View} (lives : Lives (m.adopt view)) : Lives m := by
  rcases adopt_cases m view with ignored | expels | installs
  · rwa [ignored] at lives
  · rw [Lives, expels.phase] at lives
    contradiction
  · rwa [Lives, installs.phase] at lives

/-- One piece of work other than the detector's own. -/
theorem informed_piece {opened : Bool} (informed : Informed m) (piece : Piece opened m n)
    (lives : Lives n) : Informed n := by
  cases piece with
  | steady goes => exact informed_steady informed goes lives
  | adopts opens before view first later =>
    have adopted := later.lives lives
    have ready := informed_steady informed first (lives_of_adopt adopted)
    exact informed_steady (informed_adopt ready view adopted) later lives

theorem within_piece {opened : Bool} {lead : Int} (informed : Informed m) (within : Within m lead)
    (room : 0 ≤ lead) (piece : Piece opened m n) (lives : Lives n) : Within n lead := by
  cases piece with
  | steady goes => exact within_steady within goes lives
  | adopts opens before view first later =>
    have adopted := lives_of_adopt (later.lives lives)
    have ready := informed_steady informed first adopted
    exact within_steady (within_adopt ready (within_steady within first adopted) room view) later lives

/-- A member that has a view leaves its detector to the actor. -/
theorem piece_detector {opened : Bool} {current : View} (known : m.view = some current)
    (piece : Piece opened m n) (lives : Lives n) : n.detector = m.detector := by
  cases piece with
  | steady goes => exact (goes.watching (open_of_lives lives)).1
  | adopts opens before view first later =>
    have adopted := later.lives lives
    have kept := (first.watching (open_of_lives (lives_of_adopt adopted))).1
    rw [(later.watching (open_of_lives lives)).1, ← kept]
    rcases adopt_cases before view with ignored | expels | installs
    · rw [ignored]
    · rw [Lives, expels.phase] at adopted
      contradiction
    · exact (installs.later (by simp [first.view, known])).1

theorem feeds_steady {events : List Detector.Event} (plain : Detector.news events = []) :
    Steady m (events.foldl feed m) := by
  induction events generalizing m with
  | nil => exact .refl m
  | cons event rest ih =>
    have all := List.filterMap_eq_nil_iff.mp plain
    have first := feed_steady m (all event List.mem_cons_self)
    exact first.trans (ih (List.filterMap_eq_nil_iff.mpr fun e member =>
      all e (List.mem_cons_of_mem _ member)))

theorem Informed.hears {d : Detector} (informed : Informed m) (watching : m.detector = some d) :
    ∃ v, m.view = some v ∧ d.Uninformed ∧ d.Hears v (Detector.news m.watch.inbox) := by
  cases known : m.view with
  | none =>
    rw [(informed.viewless known).1] at watching
    contradiction
  | some v =>
    obtain ⟨e, found, uninformed, hears⟩ := informed.viewed v known
    cases watching.symm.trans found
    exact ⟨v, rfl, uninformed, hears⟩

theorem informed_pass (informed : Informed m) (lives : Lives m.pass) : Informed m.pass ∧
    m.pass.view = m.view ∧ m.pass.detector.map (·.view) = m.detector.map (·.view) := by
  cases watching : m.detector with
  | none =>
    have same : m.pass = m := by simp only [pass, watching]
    rw [same, watching]
    exact ⟨informed, rfl, rfl⟩
  | some d =>
    let passed := (m.clocked d).expire
    let n : Manager := { m with detector := some passed.1 }
    have passes : m.pass = passed.2.foldl feed n := by simp only [pass, watching, n, passed]
    rw [passes] at lives ⊢
    obtain ⟨v, -, unaware, -⟩ := informed.hears watching
    have fed := feeds_steady (m := n) (Detector.uninformed_expire (d := m.clocked d) unaware).2
    have ready : Informed n := by
      refine ⟨informed.watched, informed.serves, fun none => ?_, fun u known => ?_⟩
      · rw [(informed.viewless none).1] at watching
        contradiction
      · obtain ⟨e, found, unaware, heard⟩ := informed.viewed u known
        cases watching.symm.trans found
        have later := (Detector.uninformed_expire (d := m.clocked d) unaware).1
        exact ⟨passed.1, rfl, later, heard.last, heard.older⟩
    refine ⟨informed_steady ready fed lives, fed.view, ?_⟩
    rw [(fed.watching (open_of_lives lives)).1]
    rfl

/-! ### Handling an event -/

theorem onDetectorEvent_fields (m : Manager) (event : Detector.Event) :
    ((onDetectorEvent event).run m).1.phase = m.phase ∧
      ((onDetectorEvent event).run m).1.watched = m.watched ∧
      ((onDetectorEvent event).run m).1.watch = m.watch ∧
      ((onDetectorEvent event).run m).1.view = m.view ∧
      ((onDetectorEvent event).run m).1.detector =
        m.detector.map fun d => ((m.clocked d).handle event).1 := by
  rcases onDetectorEvent_cases m event with
    ⟨none, ends⟩ | ⟨d, watching, ⟨k, ends, alarms, -⟩ | ⟨view, -, ends⟩⟩ <;> rw [ends]
  · rw [none]
    exact ⟨rfl, rfl, rfl, rfl, rfl⟩
  · obtain ⟨statistics, more, rfl, -⟩ := alarms
    rw [watching]
    exact ⟨rfl, rfl, rfl, rfl, rfl⟩
  · rw [watching]
    exact ⟨rfl, rfl, rfl, rfl, rfl⟩

section
variable {event : Detector.Event} {rest : List Detector.Event}

/-- The detector has handled the first event of the queue. -/
theorem informed_handle (informed : Informed m) (queued : m.watch.inbox = event :: rest)
    (watched : n.watched = m.watched) (view : n.view = m.view)
    (detector : n.detector = m.detector.map fun d => ((m.clocked d).handle event).1)
    (serves : n.watch.Serves) (inbox : n.watch.inbox = rest) : Informed n where
  watched := watched.trans informed.watched
  serves := serves
  viewless none := by
    obtain ⟨absent, unheard⟩ := informed.viewless (view ▸ none)
    rw [queued, Detector.news_cons] at unheard
    rw [detector, absent, inbox]
    exact ⟨rfl, (List.append_eq_nil_iff.mp unheard).2⟩
  viewed v known := by
    obtain ⟨d, found, unaware, heard⟩ := informed.viewed v (view ▸ known)
    rw [queued] at heard
    rw [detector, found, inbox]
    refine ⟨_, rfl, ?_, ?_⟩
    · exact Detector.Uninformed.arms unaware (Detector.handle_arms (m.clocked d) event)
    · exact Detector.hears_handle (d := m.clocked d) ⟨heard.last, heard.older⟩

theorem within_handle (informed : Informed m) (queued : m.watch.inbox = event :: rest)
    (view : n.view = m.view)
    (detector : n.detector = m.detector.map fun d => ((m.clocked d).handle event).1)
    (near : Within m 0) : Within n 1 ∧
      ((∀ d made, m.detector = some d → .installView made ∉ ((m.clocked d).handle event).2) →
        Within n 0) := by
  have ahead : ∀ v e, n.view = some v → n.detector = some e → ∃ d, m.detector = some d ∧
      e.view.id.toInt ≤ v.id.toInt + 1 ∧
      ((∀ made, .installView made ∉ ((m.clocked d).handle event).2) →
        e.view.id.toInt ≤ v.id.toInt) := by
    intro v e known found
    rw [detector, Option.map_eq_some_iff] at found
    obtain ⟨d, watching, rfl⟩ := found
    obtain ⟨u, same, -, heard⟩ := informed.hears watching
    cases same.symm.trans (view ▸ known)
    rw [queued] at heard
    have before := near v d same watching
    exact ⟨d, watching, Detector.handle_ahead (d := m.clocked d) ⟨heard.last, heard.older⟩
      (by rwa [Int.add_zero] at before)⟩
  refine ⟨fun v e known found => ?_, fun tame v e known found => ?_⟩
  · obtain ⟨d, -, near, -⟩ := ahead v e known found
    exact near
  · obtain ⟨d, watching, -, level⟩ := ahead v e known found
    rw [Int.add_zero]
    exact level fun made => tame d made watching

end

end

end Manager

end Cohort
