import Cohort.Proofs.Membership.Departed

/-! What comes after an expulsion. A member's life only goes forward, and it is expelled once at most.
Whoever was expelled goes on with what it had begun all the same, and adopts views when it is handed
them. -/

namespace Cohort.Manager.Course

/-- Something holds of every move in its turn. -/
def Throughout (holds : Course → Move → Prop) (c : Course) : List Move → Prop
  | [] => True
  | x :: rest => holds c x ∧ (c.move x).Throughout holds rest

/-- Nothing comes of a move: no view is installed, none is made, and nothing is told. -/
def Quiet (c : Course) (x : Move) : Prop :=
  (c.move x).manager.view = c.manager.view ∧ c.told x = [] ∧ (c.move x).made = c.made

instance (c : Course) (x : Move) : Decidable (c.Quiet x) :=
  inferInstanceAs (Decidable (_ ∧ _ ∧ _))

instance throughoutDecidable (holds : Course → Move → Prop) [∀ c x, Decidable (holds c x)] :
    (c : Course) → (moves : List Move) → Decidable (c.Throughout holds moves)
  | _, [] => isTrue trivial
  | c, x :: rest =>
    have := throughoutDecidable holds (c.move x) rest
    inferInstanceAs (Decidable (_ ∧ _))

/-- A view newer than that of the member, with the member in it. -/
def Renews (m : Manager) (view : View) : Prop :=
  ∃ current, m.view = some current ∧ current.id < view.id ∧ view.contains m.self = true

/-- Whether a payload on the direct channel hands out a newer view with the member in it. -/
def Readmits (m : Manager) (message : Message) : Prop :=
  ∃ sender view, message.sender = some sender ∧ message.payload = .installView view ∧
    sender.same view.creator = true ∧ m.phase ≠ .closed ∧ Renews m view

/-- The member has nobody to ask for admission, or no channel to ask on. -/
def Alone (m : Manager) : Prop := others m = [] ∨ m.channel = none

/-- The work is on the way into a group: it goes on with a search, settles on what that finds, and adopts
nothing afterwards. -/
structure Joins (w : Work) (search : w.effect.Answer → Act Found) : Prop where
  seeks : ∀ answer n, ∃ stage, Seeks stage n (search answer)
  settles : ∃ rest : Except ServiceError Unit → Act Unit,
    (∀ result n, Manager.Restrained false n (rest result)) ∧
      w.next = fun answer => ((search answer).bind settle).bind rest

/-- With this answer the search of the work is over, and has found the view that lets the member in, or
none. -/
def Finds (w : Work) (m : Manager) (answer : w.effect.Answer) (found : Option View) : Prop :=
  ∃ search, Joins w search ∧ ((search answer).run m).2 = .done (.ok found)

/-- The ways in which a newer view can still come about: the member begins anew and founds a group, its
creator hands one out, a change that waited makes one when it gets its turn, or a search for a group ends
with one or with founding it. -/
def Intrudes (c : Course) : Move → Prop
  | .begin .start => Alone c.manager ∧ Renews c.manager (View.initial c.manager.self)
  | .begin (.direct message) => Readmits c.manager message
  | .resume index answer => ∃ w, c.works[index]? = some w ∧
      ((product c.manager w).isSome = true ∨
        ∃ found, Finds w c.manager (answer w.effect) found ∧
          Renews c.manager (found.getD (View.initial c.manager.self)))
  | _ => False

/-- A member that was expelled. -/
structure Parted (m : Manager) : Prop where
  past : Phase.expelled.stage ≤ m.phase.stage
  viewed : m.view ≠ none
  unwatched : m.detector = none

section
variable {c : Course}

theorem parted_move (restrained : ∀ w ∈ c.works, w.Restrained) (parted : Parted c.manager) (x : Move) :
    Parted (c.move x).manager := by
  cases outcome_move restrained x with
  | stays same _ _ =>
    exact ⟨Nat.le_trans parted.past same.life, same.view ▸ parted.viewed,
      same.detector parted.unwatched⟩
  | leaves _ view last _ => exact absurd last.active (Nat.not_lt.mpr parted.past)
  | enters _ view next _ =>
    exact ⟨Nat.le_trans parted.past next.life, by simp [next.taken],
      next.detector parted.viewed parted.unwatched⟩

/-- After its expulsion a member tells nothing in a move but of a view that it adopts. -/
theorem parted_cases (restrained : ∀ w ∈ c.works, w.Restrained) (parted : Parted c.manager) (x : Move) :
    ((c.move x).manager.view = c.manager.view ∧ c.told x = []) ∨
      c.opens x = true ∧ (c.move x).manager.view ≠ c.manager.view := by
  cases outcome_move restrained x with
  | stays same _ watching => exact Or.inl ⟨same.view, watching parted.unwatched⟩
  | leaves _ view last _ => exact absurd last.active (Nat.not_lt.mpr parted.past)
  | enters opens view next _ =>
    refine Or.inr ⟨opens, fun same => ?_⟩
    rw [next.taken] at same
    exact Int32.lt_irrefl (next.newer view same.symm)

theorem made_begin (undertaking : Undertaking) : (c.move (.begin undertaking)).made = c.made :=
  (piece_fields c undertaking.procedure).2

theorem made_resume {index : Nat} {w : Work} (waiting : c.works[index]? = some w)
    (answer : (effect : Effect) → effect.Answer) :
    (c.move (.resume index answer)).made = c.made ++ (product c.manager w).toList := by
  simp only [move, waiting, record]
  rw [(piece_fields (c.without index) _).2]
  rfl

/-- A view is adopted if it is newer and with the member in it. -/
theorem view_adopt {m : Manager} (viewed : m.view ≠ none) (view : View) :
    (m.adopt view).view ≠ m.view ↔ Renews m view := by
  obtain ⟨current, known⟩ := Option.ne_none_iff_exists'.mp viewed
  constructor
  · intro changed
    rcases adopt_cases m view with ignored | expels | installs
    · exact absurd (congrArg Manager.view ignored) changed
    · exact absurd expels.kept changed
    · exact ⟨current, known, installs.newer current known, installs.present⟩
  · rintro ⟨current, known, newer, present⟩ same
    rw [adopt_view known newer present, known] at same
    exact Int32.lt_irrefl (Option.some.inj same ▸ newer)

/-- A view that was taken in is adopted if it comes from its creator, before the member is closed. -/
theorem view_takeView {m : Manager} (viewed : m.view ≠ none) (sender : Member) (view : View) :
    (m.takeView sender view).view ≠ m.view ↔
      sender.same view.creator = true ∧ m.phase ≠ .closed ∧ Renews m view := by
  unfold takeView
  by_cases refused : (!sender.same view.creator || m.phase == .closed) = true
  · rw [if_pos refused]
    refine ⟨fun changed => absurd rfl changed, fun ⟨genuine, living, _⟩ => ?_⟩
    simp [genuine, living] at refused
  · rw [if_neg refused]
    have fair : sender.same view.creator = true ∧ m.phase ≠ .closed := by simpa using refused
    rw [view_adopt viewed]
    exact ⟨fun renews => ⟨fair.1, fair.2, renews⟩, fun readmits => readmits.2.2⟩

theorem manager_direct (message : Message) : (c.move (.begin (.direct message))).manager =
    ((Undertaking.procedure (.direct message)).run c.manager).1 := (piece_fields c _).1

theorem view_unhanded {message : Message} (handed : message.payload.handed? = none) :
    (c.move (.begin (.direct message))).manager.view = c.manager.view := by
  have ordinary : ∀ event, Undertaking.direct message ≠ .detectorEvent event := by simp
  have restrained := restrained_procedure c.manager ordinary
  simp only [Undertaking.opens, handed, Option.isSome_none] at restrained
  rw [manager_direct]
  cases (run_restrained restrained).1 with
  | steady goes => exact goes.view
  | adopts opens => contradiction

/-- A message on the direct channel changes the view exactly if it hands out one that readmits. -/
theorem view_direct (viewed : c.manager.view ≠ none) (message : Message) :
    (c.move (.begin (.direct message))).manager.view ≠ c.manager.view ↔
      Readmits c.manager message := by
  cases handed : message.payload.handed? with
  | none =>
    refine ⟨fun changed => absurd (view_unhanded handed) changed, ?_⟩
    rintro ⟨_, view, -, same, -⟩
    simp [same, Payload.handed?] at handed
  | some view =>
    rw [manager_direct]
    obtain ⟨sender, recipient, payload⟩ := message
    obtain rfl : payload = .installView view := by
      cases payload <;> simp_all [Payload.handed?]
    cases sender with
    | none =>
      refine ⟨fun changed => absurd rfl changed, ?_⟩
      rintro ⟨_, _, named, -⟩
      contradiction
    | some sender =>
      refine (view_takeView viewed sender view).trans ⟨?_, ?_⟩
      · rintro ⟨genuine, living, renews⟩
        exact ⟨sender, view, rfl, rfl, genuine, living, renews⟩
      · rintro ⟨_, _, named, same, genuine, living, renews⟩
        cases named
        cases same
        exact ⟨genuine, living, renews⟩

/-! ### The way into a group -/

theorem view_grouped {m : Manager} (viewed : m.view ≠ none) (found : Option View) :
    (grouped found m).view ≠ m.view ↔ Renews m (found.getD (View.initial m.self)) := by
  have same : (grouped found m).view = (m.adopt (found.getD (View.initial m.self))).view := by
    unfold grouped
    dsimp only
    split <;> rfl
  rw [same]
  exact view_adopt viewed _

/-- A search changes the view in the end, if it does. -/
theorem view_search {m : Manager} (viewed : m.view ≠ none) {stage : Stage} {p : Act Found}
    (seeks : Seeks stage m p) : ((p.bind settle).run m).1.view ≠ m.view ↔
      ∃ found, (p.run m).2 = .done (.ok found) ∧ Renews m (found.getD (View.initial m.self)) := by
  have same := (run_seeks seeks).1
  rw [Procedure.run_bind]
  rcases stops : p.run m with ⟨n, stop⟩
  rw [stops] at same
  cases same
  rcases stop with (e | found) | ⟨effect, next⟩
  · exact ⟨fun changed => absurd rfl changed, fun ⟨_, ended, _⟩ => by cases ended⟩
  · let settled : Manager := { n with expectsAnswer := false, answers := [] }
    refine (view_grouped (m := settled) viewed found).trans ⟨fun renews => ⟨found, rfl, renews⟩, ?_⟩
    rintro ⟨_, ended, renews⟩
    cases ended
    exact renews
  · exact ⟨fun changed => absurd rfl changed, fun ⟨_, ended, _⟩ => by cases ended⟩

/-- Without a channel nobody can be asked. -/
theorem run_mute {m : Manager} (mute : m.channel = none) (locators : List Net.Endpoint) :
    (joinThroughEach locators).run m = (m, .done (.ok none)) := by
  induction locators with
  | nil => rfl
  | cons locator rest ih =>
    have fails : (joinThrough maxRedirects locator).run m =
        (m, .done (.error (.config .channelDisabled))) := by
      unfold joinThrough
      change (Procedure.bind (Procedure.bind (ite (m.channel.isNone = true) _ _) _) _).run m = _
      rw [if_pos (by simp [mute])]
      rfl
    change (Procedure.bind (joinThrough maxRedirects locator) _).run m = _
    rw [Procedure.run_bind, fails]
    exact ih

/-- With a channel the first locator is asked. -/
theorem run_asks {m : Manager} (able : m.channel ≠ none) {locators : List Net.Endpoint}
    (known : locators ≠ []) (found : Found) : ((joinThroughEach locators).run m).2 ≠ .done found := by
  cases locators with
  | nil => contradiction
  | cons locator rest =>
    unfold joinThroughEach joinThrough
    change (Procedure.run (Procedure.bind (Procedure.bind (Procedure.bind
      (ite (m.channel.isNone = true) _ _) _) _) _) m).2 ≠ _
    rw [if_neg (by simpa using able)]
    intro ended
    cases ended

theorem view_start (viewed : c.manager.view ≠ none) :
    (c.move (.begin .start)).manager.view ≠ c.manager.view ↔
      Alone c.manager ∧ Renews c.manager (View.initial c.manager.self) := by
  have goes : (c.move (.begin .start)).manager.view = (enterGroup.run c.manager).1.view := by
    have first : (c.move (.begin .start)).manager =
        ((Undertaking.procedure .start).run c.manager).1 := (piece_fields c _).1
    rw [first]
    refine (view_bind Manager.start fun _ _ => restrained_pure _).trans
      (view_bind enterGroup fun entered n => ?_)
    cases entered with
    | ok _ => exact restrained_pure _
    | error e => exact restrained_bind (restrained_close n) fun _ n => restrained_pure _
  rw [goes, Quest.enterGroup_eq]
  change (Procedure.run (ite _ _ _) c.manager).1.view ≠ _ ↔ _
  by_cases alone : others c.manager = []
  · rw [if_pos (by simp [alone])]
    refine (view_grouped viewed none).trans ⟨fun renews => ⟨Or.inl alone, renews⟩, fun both => both.2⟩
  · rw [if_neg (by simpa using alone)]
    let opens : Manager := { c.manager with expectsAnswer := true, answers := [] }
    have seeks : Seeks .free opens (joinThroughEach (others c.manager)) :=
      seeks_joinThroughEach _ (by simp)
    refine (view_search (m := opens) viewed seeks).trans ?_
    by_cases mute : c.manager.channel = none
    · rw [run_mute (m := opens) mute]
      constructor
      · rintro ⟨_, ended, renews⟩
        cases ended
        exact ⟨Or.inr mute, renews⟩
      · rintro ⟨-, renews⟩
        exact ⟨none, rfl, renews⟩
    · constructor
      · rintro ⟨found, ended, -⟩
        exact absurd ended (run_asks (m := opens) mute alone _)
      · rintro ⟨unheard | unheard, -⟩
        · exact absurd unheard alone
        · exact absurd unheard mute

/-! ### Waiting work -/

theorem manager_resume {index : Nat} {w : Work} (waiting : c.works[index]? = some w)
    (answer : (effect : Effect) → effect.Answer) :
    (c.move (.resume index answer)).manager = ((w.next (answer w.effect)).run c.manager).1 := by
  simp only [move, waiting]
  exact (piece_fields (c.without index) _).1

theorem view_of_finds (viewed : c.manager.view ≠ none) {w : Work} {answer : w.effect.Answer}
    {found : Option View} (finds : Finds w c.manager answer found)
    (renews : Renews c.manager (found.getD (View.initial c.manager.self))) :
    ((w.next answer).run c.manager).1.view ≠ c.manager.view := by
  obtain ⟨search, ⟨seeks, rest, later, same⟩, ended⟩ := finds
  obtain ⟨stage, seeks⟩ := seeks answer c.manager
  rw [same, view_bind _ later]
  exact (view_search viewed seeks).mpr ⟨found, ended, renews⟩

/-- Work that makes no view with its turn, and does not end a search with a newer one, leaves the view as
it is. -/
theorem view_needless (viewed : c.manager.view ≠ none) {w : Work} (restrained : w.Restrained)
    (needless : product c.manager w = none) (answer : w.effect.Answer)
    (fruitless : ∀ found, Finds w c.manager answer found →
      ¬ Renews c.manager (found.getD (View.initial c.manager.self))) :
    ((w.next answer).run c.manager).1.view = c.manager.view := by
  obtain ⟨effect, next, basis⟩ := w
  have waits : Manager.Restrained false c.manager (.await effect next) := restrained c.manager
  cases waits with
  | @turn _ _ change rest later =>
    have proposes : c.manager.proposal change = none := by
      rw [← product_next (w := ⟨.changeTurn change, _, basis⟩) rfl, needless]
      rfl
    cases (run_restrained (restrained_needless _ (.turn later) proposes)).1 with
    | steady goes => exact goes.view
    | adopts opens => contradiction
  | await _ goesOn =>
    cases (run_restrained (goesOn answer c.manager)).1 with
    | steady goes => exact goes.view
    | adopts opens => contradiction
  | join joining seeks later =>
    by_contra changed
    obtain ⟨stage, search⟩ := seeks answer c.manager
    dsimp only at changed
    rw [view_bind _ later] at changed
    obtain ⟨found, ended, renews⟩ := (view_search viewed search).mp changed
    exact fruitless found ⟨_, ⟨seeks, _, later, rfl⟩, ended⟩ renews

/-- Where the view stays, nothing is told. -/
theorem silent_of_same (restrained : ∀ w ∈ c.works, w.Restrained) (parted : Parted c.manager) {x : Move}
    (same : (c.move x).manager.view = c.manager.view) : c.told x = [] := by
  rcases parted_cases restrained parted x with ⟨-, silent⟩ | ⟨-, changed⟩
  · exact silent
  · exact absurd same changed

theorem same_of_shut (restrained : ∀ w ∈ c.works, w.Restrained) (parted : Parted c.manager) {x : Move}
    (shut : c.opens x = false) : (c.move x).manager.view = c.manager.view := by
  rcases parted_cases restrained parted x with ⟨same, -⟩ | ⟨opens, -⟩
  · exact same
  · rw [shut] at opens
    contradiction

/-- What begins is quiet exactly if the view stays, for it makes none. -/
theorem quiet_begin_iff (restrained : ∀ w ∈ c.works, w.Restrained) (parted : Parted c.manager)
    (undertaking : Undertaking) : c.Quiet (.begin undertaking) ↔
      (c.move (.begin undertaking)).manager.view = c.manager.view :=
  ⟨fun quiet => quiet.1, fun same =>
    ⟨same, silent_of_same restrained parted same, made_begin undertaking⟩⟩

/-- What goes on is quiet exactly if it neither makes a view nor ends a search with a newer one. -/
theorem quiet_resume_iff (restrained : ∀ w ∈ c.works, w.Restrained) (parted : Parted c.manager)
    {index : Nat} {w : Work} (waiting : c.works[index]? = some w)
    (answer : (effect : Effect) → effect.Answer) :
    c.Quiet (.resume index answer) ↔ product c.manager w = none ∧
      ∀ found, Finds w c.manager (answer w.effect) found →
        ¬ Renews c.manager (found.getD (View.initial c.manager.self)) := by
  have made := made_resume waiting answer
  constructor
  · rintro ⟨same, -, none⟩
    refine ⟨?_, fun found finds renews => ?_⟩
    · rw [made] at none
      exact Option.toList_eq_nil_iff.mp (List.append_right_eq_self.mp none)
    · rw [manager_resume waiting] at same
      exact view_of_finds parted.viewed finds renews same
  · rintro ⟨needless, fruitless⟩
    have waits := restrained w (List.mem_of_getElem? waiting)
    have same : (c.move (.resume index answer)).manager.view = c.manager.view := by
      rw [manager_resume waiting]
      exact view_needless parted.viewed waits needless _ fruitless
    refine ⟨same, silent_of_same restrained parted same, ?_⟩
    rw [made, needless]
    exact List.append_nil _

/-- After its expulsion nothing comes of a move unless it is one of those that intrude. -/
theorem quiet_iff (restrained : ∀ w ∈ c.works, w.Restrained) (parted : Parted c.manager) (x : Move) :
    c.Quiet x ↔ ¬ c.Intrudes x := by
  cases x with
  | begin undertaking =>
    rw [quiet_begin_iff restrained parted]
    cases undertaking with
    | start => exact not_not.symm.trans (not_congr (view_start parted.viewed))
    | direct message => exact not_not.symm.trans (not_congr (view_direct parted.viewed message))
    | _ => exact ⟨fun _ => id, fun _ => same_of_shut restrained parted rfl⟩
  | resume index answer =>
    cases waiting : c.works[index]? with
    | none =>
      have same := same_of_shut restrained parted (x := .resume index answer)
        (by simp [opens, waiting])
      refine ⟨?_, fun _ => ⟨same, silent_of_same restrained parted same, ?_⟩⟩
      · rintro - ⟨w, found, -⟩
        rw [waiting] at found
        contradiction
      · simp only [move, waiting]
    | some w =>
      rw [quiet_resume_iff restrained parted waiting]
      simp [Intrudes, waiting]
  | abandon index => exact ⟨fun _ => id, fun _ => ⟨rfl, silent_of_same restrained parted rfl, rfl⟩⟩
  | pass =>
    have same := same_of_shut restrained parted (x := .pass) rfl
    exact ⟨fun _ => id, fun _ => ⟨same, silent_of_same restrained parted same, rfl⟩⟩
  | outside now watch pulse answers statistics notices =>
    exact ⟨fun _ => id, fun _ => ⟨rfl, rfl, rfl⟩⟩

theorem throughout_quiet_iff (restrained : ∀ w ∈ c.works, w.Restrained) (parted : Parted c.manager)
    (moves : List Move) :
    c.Throughout Quiet moves ↔ c.Throughout (fun c x => ¬ c.Intrudes x) moves := by
  induction moves generalizing c with
  | nil => exact Iff.rfl
  | cons x rest ih =>
    have later := ih (restrained_move restrained x) (parted_move restrained parted x)
    exact and_congr (quiet_iff restrained parted x) later

theorem life_after (restrained : ∀ w ∈ c.works, w.Restrained) (moves : List Move) :
    c.manager.phase.stage ≤ (c.after moves).manager.phase.stage := by
  induction moves generalizing c with
  | nil => exact Nat.le_refl _
  | cons x rest ih =>
    refine Nat.le_trans ?_ (ih (restrained_move restrained x))
    cases outcome_move restrained x with
    | stays same _ _ => exact same.life
    | leaves _ view last _ => exact Nat.le_trans (Nat.le_of_lt last.active) last.life
    | enters _ view next _ => exact next.life

/-- What is told of an expulsion is told alone, when the member leaves its group. -/
theorem told_expulsion (restrained : ∀ w ∈ c.works, w.Restrained) (x : Move) :
    (∀ e ∈ c.told x, e.isExpulsion = false) ∨
      ∃ view, c.told x = [.expelled view] ∧ Leaves c.manager view (c.move x).manager := by
  cases outcome_move restrained x with
  | stays same alarms _ =>
    refine Or.inl fun e member => ?_
    have alarm := alarms e member
    cases e <;> first | rfl | contradiction
  | leaves _ view last known => exact Or.inr ⟨view, known, last⟩
  | enters _ view next known =>
    rw [known]
    exact Or.inl (view.diff_expulsion c.manager.view)

theorem parted_of_leaves {m n : Manager} {view : View} (last : Leaves m view n) : Parted n where
  past := last.life
  viewed := by
    obtain ⟨current, known, -⟩ := last.newer
    simp [last.kept, known]
  unwatched := last.detector

/-- Whoever was expelled is not expelled again. -/
theorem stream_parted (restrained : ∀ w ∈ c.works, w.Restrained) (parted : Parted c.manager)
    (moves : List Move) : ∀ e ∈ c.stream moves, e.isExpulsion = false := by
  induction moves generalizing c with
  | nil => simp [stream]
  | cons x rest ih =>
    intro e member
    rcases List.mem_append.mp member with now | later
    · rcases told_expulsion restrained x with none | ⟨view, -, last⟩
      · exact none e now
      · exact absurd last.active (Nat.not_lt.mpr parted.past)
    · exact ih (restrained_move restrained x) (parted_move restrained parted x) e later

theorem expelled_once (restrained : ∀ w ∈ c.works, w.Restrained) (moves : List Move) :
    (c.stream moves).countP View.Event.isExpulsion ≤ 1 := by
  have zero : ∀ events : List View.Event, (∀ e ∈ events, e.isExpulsion = false) →
      events.countP View.Event.isExpulsion = 0 := fun events none =>
    List.countP_eq_zero.mpr fun e member => by simp [none e member]
  induction moves generalizing c with
  | nil => exact Nat.zero_le _
  | cons x rest ih =>
    have later := restrained_move restrained x
    rw [stream, List.countP_append]
    rcases told_expulsion restrained x with none | ⟨view, told, last⟩
    · rw [zero _ none, Nat.zero_add]
      exact ih later
    · rw [zero _ (stream_parted later (parted_of_leaves last) rest), told]
      exact Nat.le_refl 1

end

/-- A member's life only goes forward, and it tells of its expulsion once at most and of nothing else
with it. From then on it installs, tells and makes nothing if and only if no view intrudes. -/
theorem expulsion_final_iff (config : Config) (policy : LossPolicy) (self : Member)
    (channel : Option Net.Endpoint) (rota : Detector.Rota) (moves : List Move) :
    let c := fresh config policy self channel rota
    (∀ first second, moves = first ++ second →
      (c.after first).manager.phase.stage ≤ (c.after moves).manager.phase.stage) ∧
    (c.stream moves).countP View.Event.isExpulsion ≤ 1 ∧
    ∀ first x second view, moves = first ++ x :: second → .expelled view ∈ (c.after first).told x →
      let d := (c.after first).move x
      (c.after first).told x = [.expelled view] ∧ d.manager.view = (c.after first).manager.view ∧
      Phase.expelled.stage ≤ d.manager.phase.stage ∧
      (d.Throughout Quiet second ↔ d.Throughout (fun c x => ¬ c.Intrudes x) second) := by
  intro c
  have restrained : ∀ w ∈ c.works, w.Restrained := by simp [c, fresh]
  refine ⟨?_, expelled_once restrained moves, ?_⟩
  · rintro first second rfl
    rw [after_append]
    exact life_after (restrained_after restrained first) second
  · rintro first x second view - member
    have there := restrained_after restrained first
    rcases told_expulsion there x with none | ⟨other, told, last⟩
    · exact absurd (none _ member) (by simp [View.Event.isExpulsion])
    · rw [told, List.mem_singleton] at member
      cases member
      refine ⟨told, last.kept, last.life, ?_⟩
      exact throughout_quiet_iff (restrained_move there x) (parted_of_leaves last) second

/-- Others put the member into a view, go on without it, and have it in again. -/
def hands (id : Int32) (members : List Member) : Move :=
  .begin (.direct { sender := some (.peer 2), payload := .installView ⟨id, .peer 2, members, [], []⟩ })

theorem readmitted_installs :
    let c := founder.after [.begin .start, hands 5 [.peer 2, .peer 1]]
    .expelled ⟨7, .peer 2, [.peer 2], [], []⟩ ∈ c.told (hands 7 [.peer 2]) ∧
      ¬ (c.move (hands 7 [.peer 2])).Throughout Quiet [hands 8 [.peer 2, .peer 1]] := by
  decide

end Cohort.Manager.Course
