import Mathlib.Data.List.Induction
import Cohort.Proofs.Health.Handling
import Cohort.Proofs.View.Successor

/-! A member is removed only after a final check of it that nothing answered, and once for each stay
in the view. -/

namespace Cohort.Detector

/-- Whether an action removes a member or asks the coordinator for that. -/
def Action.removes (m : Member) : Action → Bool
  | .installView view => m.isIn view.crashed
  | .requestRemoval _ x _ => x.same m
  | _ => false

/-- Whether an action is a view that names a member as crashed. -/
def Action.crashes (m : Member) : Action → Bool
  | .installView view => m.isIn view.crashed
  | _ => false

/-- A move sends a member a final check. -/
def Asks (d : Detector) (x : Move) (m : Member) (request : UInt64) : Prop :=
  ∃ target, .sendFinalCheck target request ∈ (d.move x).2 ∧ target.same m = true

/-- A move is a sign of life: the answer to a heartbeat, or to that final check. -/
def Answers (m : Member) (request : UInt64) : Move → Prop
  | .handle (.heartbeatResponse source _) => source.same m = true
  | .handle (.finalCheckResponse source r) => source.same m = true ∧ r = request
  | _ => False

/-- A move is the failure of a final check, by silence or because it could not be sent. -/
def Fails (m : Member) (request : UInt64) : Move → Prop
  | .handle (.finalCheckTimeout x r) => x.same m = true ∧ r = request
  | .handle (.finalCheckFailed x r) => x.same m = true ∧ r = request
  | _ => False

/-- A final check was sent, and nothing that came since answers it. -/
structure Unanswered (d : Detector) (earlier : List Move) (asking : Move) (between : List Move)
    (m : Member) (request : UInt64) : Prop where
  asked : (d.after earlier).Asks asking m request
  silent : ∀ x ∈ between, ¬ Answers m request x

/-- In its present stay in the view a member was sent a final check that it has not answered. -/
def UnderCheck (d : Detector) (moves : List Move) (m : Member) (request : UInt64) : Prop :=
  ∃ earlier asking between, moves = earlier ++ asking :: between ∧
    d.Unanswered earlier asking between m request ∧ (d.after earlier).Stays m (asking :: between)

/-- In its present stay in the view a member was sent a final check that failed unanswered. -/
def FailedCheck (d : Detector) (moves : List Move) (m : Member) : Prop :=
  ∃ earlier asking between failing later request,
    moves = earlier ++ asking :: (between ++ failing :: later) ∧
    d.Unanswered earlier asking between m request ∧ Fails m request failing ∧
    (d.after earlier).Stays m (asking :: (between ++ failing :: later))

section
variable {d : Detector} {moves : List Move} {m : Member} {request : UInt64} {x : Move}

theorem underCheck_asked (asks : (d.after moves).Asks x m request)
    (here : (d.after moves).view.contains m = true) : d.UnderCheck (moves ++ [x]) m request :=
  ⟨moves, x, [], rfl, ⟨asks, by simp⟩, (stays_cons _ m x []).mpr ⟨here, stays_nil _ m⟩⟩

theorem underCheck_snoc (checked : d.UnderCheck moves m request) (silent : ¬ Answers m request x)
    (here : (d.after moves).view.contains m = true) : d.UnderCheck (moves ++ [x]) m request := by
  obtain ⟨earlier, asking, between, rfl, unanswered, stays⟩ := checked
  rw [after_append] at here
  refine ⟨earlier, asking, between ++ [x], by simp, ⟨unanswered.asked, ?_⟩, stays_snoc stays here x⟩
  intro y member
  rcases List.mem_append.mp member with old | new
  · exact unanswered.silent y old
  · rw [List.mem_singleton.mp new]
    exact silent

theorem failedCheck_of_underCheck (checked : d.UnderCheck moves m request)
    (fails : Fails m request x) (here : (d.after moves).view.contains m = true) :
    d.FailedCheck (moves ++ [x]) m := by
  obtain ⟨earlier, asking, between, rfl, unanswered, stays⟩ := checked
  rw [after_append] at here
  exact ⟨earlier, asking, between, x, [], request, by simp, unanswered, fails,
    stays_snoc stays here x⟩

theorem failedCheck_snoc (failed : d.FailedCheck moves m)
    (here : (d.after moves).view.contains m = true) (x : Move) :
    d.FailedCheck (moves ++ [x]) m := by
  obtain ⟨earlier, asking, between, failing, later, request, rfl, unanswered, fails, stays⟩ := failed
  rw [after_append] at here
  refine ⟨earlier, asking, between, failing, later ++ [x], request, by simp, unanswered, fails, ?_⟩
  simpa only [List.append_assoc, List.cons_append] using stays_snoc stays here x

end

/-! ### What a move does to a health -/

/-- How a member's health after a move came about. -/
inductive Passage (d : Detector) (x : Move) (m : Member) (h : Health) : Prop where
  | calm (state : h.state = .alive ∨ h.state = .suspected)
  | kept (old : Health) (known : d.health.get? m = some old) (state : h.state = old.state)
      (check : ∀ o, h.finalCheck = some o → old.finalCheck = some o)
      (silent : h.state = .finalCheck → ∀ o, h.finalCheck = some o → ¬ Answers m o.request x)
  | asked (request : UInt64) (asks : d.Asks x m request) (state : h.state = .finalCheck)
      (check : ∀ o, h.finalCheck = some o → o.request = request)
  | failed (old : Health) (o : Outstanding) (known : d.health.get? m = some old)
      (state : h.state = .removed) (before : old.state = .finalCheck)
      (check : old.finalCheck = some o) (fails : Fails m o.request x)

theorem passage_of_source {d : Detector} {x : Move} {m : Member} {h : Health}
    (source : Source d (d.move x).2 m h)
    (silent : h.state = .finalCheck → ∀ o, h.finalCheck = some o → ¬ Answers m o.request x) :
    Passage d x m h := by
  cases source with
  | calm state => exact .calm state
  | kept old known state check => exact .kept old known state check silent
  | asked target request sent alike state check =>
    exact .asked request ⟨target, sent, alike⟩ state check

theorem install_source {d : Detector} {view : View} {actions : List Action} {m : Member} {h : Health}
    (known : (d.install view).health.get? m = some h) : Source d actions m h := by
  by_cases older : view.id < d.view.id
  · rw [install_older older] at known
    exact .kept h known rfl fun _ checked => checked
  · rcases (get?_install older known).2 with kept | ⟨-, rfl⟩
    · exact .kept h kept rfl fun _ checked => checked
    · exact .calm (Or.inl rfl)

theorem conclude_source {d : Detector} {m : Member} {h : Health}
    (known : d.conclude.1.health.get? m = some h) : Source d d.conclude.2 m h := by
  rcases conclude_cases d with quiet | ⟨e, -, -, health, same⟩
  · exact quiet.source m h known
  · have back : ∀ {actions}, Source e actions m h → Source d actions m h := by
      intro actions source
      cases source with
      | calm state => exact .calm state
      | kept old found state check => exact .kept old (health ▸ found) state check
      | asked target request sent alike state check =>
        exact .asked target request sent alike state check
    rw [same] at known ⊢
    rcases removeFailed_cases e (d.membersIn [.removed]) with ⟨unchanged, -⟩ | ⟨c, -, -, installed⟩
    · rw [unchanged] at known
      exact back (.kept h known rfl fun _ checked => checked)
    · rw [installed] at known ⊢
      exact back (install_source known)

/-- The failure of a final check passes on every health but the one of the member it is about. -/
theorem passage_of_failure {d : Detector} {x : Move} {target m : Member} {request : UInt64}
    {h : Health} (moved : d.move x = d.onFinalCheckFailed target request)
    (known : (d.onFinalCheckFailed target request).1.health.get? m = some h)
    (fails : target.same m = true → Fails m request x)
    (silent : ∀ r, ¬ Answers m r x) : Passage d x m h := by
  rcases onFinalCheckFailed_cases d target request with
    same | ⟨old, o, found, state, waits, rfl, same⟩
  · rw [same] at known
    exact .kept h known rfl (fun _ checked => checked) fun _ o _ => silent o.request
  · rw [same] at known
    cases conclude_source known with
    | calm calm => exact .calm calm
    | asked reached r sent alike checked check =>
      exact .asked r ⟨reached, by rw [moved, same]; exact sent, alike⟩ checked check
    | kept new entry unchanged check =>
      rcases get?_markFailed entry with ⟨alike, -, removed⟩ | untouched
      · exact .failed old o (Table.get?_congr alike ▸ found) (unchanged.trans removed) state waits
          (fails alike)
      · exact .kept new untouched unchanged check fun _ o _ => silent o.request

theorem passage {d : Detector} {x : Move} {m : Member} {h : Health}
    (known : (d.move x).1.health.get? m = some h) : Passage d x m h := by
  have quiet : ∀ {result}, d.move x = result → Quiet d result →
      (h.state = .finalCheck → ∀ o, h.finalCheck = some o → ¬ Answers m o.request x) →
      Passage d x m h := by
    rintro result rfl still
    exact passage_of_source (still.source m h known)
  cases x with
  | timers schedule => exact quiet rfl (.of_same_health rfl rfl rfl) fun _ _ _ answer => answer
  | start => exact quiet rfl (scheduleTick_quiet d ⟨0⟩) fun _ _ _ answer => answer
  | stop => exact quiet rfl (stop_quiet d) fun _ _ _ answer => answer
  | handle event =>
    cases event with
    | heartbeatTick => exact quiet rfl (onTick_quiet d) fun _ _ _ answer => answer
    | heartbeatTimeout member request =>
      exact quiet rfl (onHeartbeatTimeout_quiet d member request) fun _ _ _ answer => answer
    | suspectReceived reporter suspects =>
      exact quiet rfl (onSuspects_quiet d reporter suspects) fun _ _ _ answer => answer
    | removeRequested requester member reason =>
      exact quiet rfl (onRemoveRequested_quiet d requester member) fun _ _ _ answer => answer
    | heartbeatResponse source request =>
      refine quiet rfl (onResponse_quiet d source request false) ?_
      intro state o _ alike
      have final := (onResponse_unanswered known state alike).1
      contradiction
    | finalCheckResponse source request =>
      refine quiet rfl (onResponse_quiet d source request true) ?_
      rintro state o checked ⟨alike, same⟩
      exact (onResponse_unanswered known state alike).2 o checked same.symm
    | finalCheckTimeout target request =>
      exact passage_of_failure rfl known (fun alike => ⟨alike, rfl⟩) fun _ answer => answer
    | finalCheckFailed target request =>
      exact passage_of_failure rfl known (fun alike => ⟨alike, rfl⟩) fun _ answer => answer
    | viewInstalled view => exact passage_of_source (install_source known) fun _ _ _ answer => answer

/-- A move is quiet, or installs a view from outside, or is the failure of a final check. -/
theorem move_cases (d : Detector) (x : Move) :
    Quiet d (d.move x) ∨ (∃ view, d.move x = (d.install view, [])) ∨
      ∃ target request, d.move x = d.onFinalCheckFailed target request ∧
        ∀ m, target.same m = true → Fails m request x := by
  cases x with
  | timers schedule => exact Or.inl (.of_same_health rfl rfl rfl)
  | start => exact Or.inl (scheduleTick_quiet d ⟨0⟩)
  | stop => exact Or.inl (stop_quiet d)
  | handle event =>
    cases event with
    | heartbeatTick => exact Or.inl (onTick_quiet d)
    | heartbeatTimeout member request => exact Or.inl (onHeartbeatTimeout_quiet d member request)
    | heartbeatResponse source request => exact Or.inl (onResponse_quiet d source request false)
    | suspectReceived reporter suspects => exact Or.inl (onSuspects_quiet d reporter suspects)
    | finalCheckResponse source request => exact Or.inl (onResponse_quiet d source request true)
    | removeRequested requester member _ => exact Or.inl (onRemoveRequested_quiet d requester member)
    | viewInstalled view => exact Or.inr (Or.inl ⟨view, rfl⟩)
    | finalCheckTimeout target request =>
      exact Or.inr (Or.inr ⟨target, request, rfl, fun _ alike => ⟨alike, rfl⟩⟩)
    | finalCheckFailed target request =>
      exact Or.inr (Or.inr ⟨target, request, rfl, fun _ alike => ⟨alike, rfl⟩⟩)

/-! ### Whom a detector follows -/

/-- A detector follows members of its view only, and never its own member. -/
def Follows (d : Detector) : Prop :=
  ∀ m h, d.health.get? m = some h → d.view.contains m = true ∧ d.self.same m = false

theorem follows_create (self : Member) (view : View) (settings : Settings) (policy : LossPolicy)
    (now : Nat) : (create self view settings policy now).Follows := by
  intro m h known
  rcases get?_track self view [] m with same | ⟨member, other, -⟩
  · have unknown : (track self [] view).get? m = none := same
    have found : (track self [] view).get? m = some h := known
    rw [unknown] at found
    contradiction
  · exact ⟨member, other⟩

theorem quiet_known {d : Detector} {result : Detector × List Action} {m : Member} {h : Health}
    (quiet : Quiet d result) (known : result.1.health.get? m = some h) :
    ∃ old, d.health.get? m = some old := by
  have tracked := quiet.tracked m
  rw [known, Option.isSome_some] at tracked
  exact Option.isSome_iff_exists.mp tracked.symm

theorem follows_of_quiet {d : Detector} {result : Detector × List Action} (follows : d.Follows)
    (quiet : Quiet d result) : result.1.Follows := by
  intro m h known
  obtain ⟨old, found⟩ := quiet_known quiet known
  rw [quiet.view, quiet.self]
  exact follows m old found

theorem follows_install {d : Detector} (follows : d.Follows) (view : View) :
    (d.install view).Follows := by
  by_cases older : view.id < d.view.id
  · rw [install_older older]
    exact follows
  · intro m h known
    rw [install_view older, install_self]
    obtain ⟨member, kept | ⟨other, -⟩⟩ := get?_install older known
    · exact ⟨member, (follows m h kept).2⟩
    · exact ⟨member, other⟩

theorem follows_conclude {d : Detector} (follows : d.Follows) : d.conclude.1.Follows := by
  rcases conclude_cases d with quiet | ⟨e, self, view, health, same⟩
  · exact follows_of_quiet follows quiet
  · have alike : e.Follows := by
      intro m h known
      rw [view, self]
      exact follows m h (health ▸ known)
    rw [same]
    rcases removeFailed_cases e (d.membersIn [.removed]) with ⟨unchanged, -⟩ | ⟨c, -, -, installed⟩
    · rw [unchanged]
      exact alike
    · rw [installed]
      exact follows_install alike _

theorem follows_markFailed {d : Detector} (follows : d.Follows) (m : Member) (h : Health) :
    (d.markFailed m h).Follows := by
  intro k new known
  rcases get?_markFailed known with ⟨-, tracked, -⟩ | same
  · obtain ⟨old, found⟩ := Option.isSome_iff_exists.mp tracked
    exact follows k old found
  · exact follows k new same

theorem follows_move {d : Detector} (follows : d.Follows) (x : Move) : (d.move x).1.Follows := by
  rcases move_cases d x with quiet | ⟨view, moved⟩ | ⟨target, request, moved, -⟩
  · exact follows_of_quiet follows quiet
  · rw [moved]
    exact follows_install follows view
  · rw [moved]
    rcases onFinalCheckFailed_cases d target request with same | ⟨h, o, -, -, -, -, same⟩
    · rw [same]
      exact follows
    · rw [same]
      exact follows_conclude (follows_markFailed follows target h)

theorem follows_after {d : Detector} (follows : d.Follows) (moves : List Move) :
    (d.after moves).Follows := by
  induction moves generalizing d with
  | nil => exact follows
  | cons x rest ih => exact ih (follows_move follows x)

/-! Only newcomers are unknown before a move, and they are healthy. -/

theorem install_known {d : Detector} {view : View} {m : Member} {h : Health}
    (known : (d.install view).health.get? m = some h) (ill : h.state ≠ .alive) :
    ∃ old, d.health.get? m = some old := by
  by_cases older : view.id < d.view.id
  · rw [install_older older] at known
    exact ⟨h, known⟩
  · rcases (get?_install older known).2 with kept | ⟨-, rfl⟩
    · exact ⟨h, kept⟩
    · exact absurd rfl ill

theorem conclude_known {d : Detector} {m : Member} {h : Health}
    (known : d.conclude.1.health.get? m = some h) (ill : h.state ≠ .alive) :
    ∃ old, d.health.get? m = some old := by
  rcases conclude_cases d with quiet | ⟨e, -, -, health, same⟩
  · exact quiet_known quiet known
  · rw [same] at known
    rw [← health]
    rcases removeFailed_cases e (d.membersIn [.removed]) with ⟨unchanged, -⟩ | ⟨c, -, -, installed⟩
    · rw [unchanged] at known
      exact ⟨h, known⟩
    · rw [installed] at known
      exact install_known known ill

theorem move_known {d : Detector} {x : Move} {m : Member} {h : Health}
    (known : (d.move x).1.health.get? m = some h) (ill : h.state ≠ .alive) :
    ∃ old, d.health.get? m = some old := by
  rcases move_cases d x with quiet | ⟨view, moved⟩ | ⟨target, request, moved, -⟩
  · exact quiet_known quiet known
  · rw [moved] at known
    exact install_known known ill
  · rw [moved] at known
    rcases onFinalCheckFailed_cases d target request with same | ⟨old, o, -, -, -, -, same⟩
    · rw [same] at known
      exact ⟨h, known⟩
    · rw [same] at known
      obtain ⟨marked, entry⟩ := conclude_known known ill
      rcases get?_markFailed entry with ⟨-, tracked, -⟩ | untouched
      · exact Option.isSome_iff_exists.mp tracked
      · exact ⟨marked, untouched⟩

/-! ### What a removal is due to -/

/-- Nobody but the members marked as removed is removed. -/
theorem conclude_removes {d : Detector} {a : Action} {m : Member} (wanted : a ∈ d.conclude.2)
    (removes : a.removes m = true) :
    ∃ h, d.health.get? m = some h ∧ h.state = .removed := by
  have marked : ∀ x ∈ d.membersIn [.removed], x.same m = true →
      ∃ h, d.health.get? m = some h ∧ h.state = .removed := by
    intro x chosen alike
    obtain ⟨-, h, known, state⟩ := (mem_membersIn d _ x).mp chosen
    exact ⟨h, Table.get?_congr alike ▸ known, List.mem_singleton.mp state⟩
  rcases conclude_cases d with quiet | ⟨e, -, -, -, same⟩
  · have harmless := quiet.harmless a wanted
    cases a <;> simp_all [Action.isRemoval, Action.removes]
  · rw [same] at wanted
    rcases removeFailed_cases e (d.membersIn [.removed]) with ⟨-, asks⟩ | ⟨c, -, -, installed⟩
    · obtain ⟨coordinator, x, failed, rfl⟩ := asks a wanted
      exact marked x failed removes
    · rw [installed] at wanted
      rw [List.mem_singleton.mp wanted] at removes
      obtain ⟨-, crashed⟩ := (View.crashed_successor e.view e.self m [] [] _).mp removes
      obtain ⟨x, failed, alike⟩ := (Member.isIn_iff m _).mp crashed
      exact marked x failed (by rw [Member.same_comm]; exact alike)

/-- A member that is removed was marked before, or its final check fails with this very move. -/
theorem removal_cause {d : Detector} {x : Move} {a : Action} {m : Member}
    (wanted : a ∈ (d.move x).2) (removes : a.removes m = true) :
    ∃ h, d.health.get? m = some h ∧ (h.state = .removed ∨
      h.state = .finalCheck ∧ ∃ o, h.finalCheck = some o ∧ Fails m o.request x) := by
  rcases move_cases d x with quiet | ⟨view, moved⟩ | ⟨target, request, moved, fails⟩
  · have harmless := quiet.harmless a wanted
    cases a <;> simp_all [Action.isRemoval, Action.removes]
  · simp [moved] at wanted
  · rw [moved] at wanted
    rcases onFinalCheckFailed_cases d target request with
      same | ⟨old, o, found, state, checked, rfl, same⟩
    · simp [same] at wanted
    · rw [same] at wanted
      obtain ⟨h, known, removed⟩ := conclude_removes wanted removes
      rcases get?_markFailed known with ⟨alike, -, -⟩ | untouched
      · exact ⟨old, Table.get?_congr alike ▸ found, Or.inr ⟨state, o, checked, fails m alike⟩⟩
      · exact ⟨h, untouched, Or.inl removed⟩

/-- Every health of a detector is accounted for by the moves that led to it. -/
structure Accounted (d : Detector) (moves : List Move) : Prop where
  follows : (d.after moves).Follows
  checked : ∀ m h o, (d.after moves).health.get? m = some h → h.state = .finalCheck →
    h.finalCheck = some o → d.UnderCheck moves m o.request
  removed : ∀ m h, (d.after moves).health.get? m = some h → h.state = .removed →
    d.FailedCheck moves m

theorem accounted_create (self : Member) (view : View) (settings : Settings) (policy : LossPolicy)
    (now : Nat) : (create self view settings policy now).Accounted [] := by
  have alive : ∀ m h, (create self view settings policy now).health.get? m = some h →
      h.state = .alive := by
    intro m h known
    have known : (track self [] view).get? m = some h := known
    rcases get?_track self view [] m with same | ⟨-, -, healthy⟩
    · rw [same] at known
      contradiction
    · rw [healthy] at known
      cases known
      rfl
  refine ⟨follows_create self view settings policy now, ?_, ?_⟩
  · intro m h o known state
    rw [alive m h known] at state
    contradiction
  · intro m h known state
    rw [alive m h known] at state
    contradiction

theorem accounted_snoc {d : Detector} {moves : List Move} (accounted : d.Accounted moves) (x : Move) :
    d.Accounted (moves ++ [x]) := by
  have here : ∀ {m h}, (d.after moves).health.get? m = some h →
      (d.after moves).view.contains m = true := fun known => (accounted.follows _ _ known).1
  refine ⟨?_, ?_, ?_⟩
  · rw [after_snoc]
    exact follows_move accounted.follows x
  · intro m h o known state checked
    rw [after_snoc] at known
    cases passage known with
    | calm calm => simp [state] at calm
    | failed old o' entry removed => simp [state] at removed
    | kept old entry same check silent =>
      exact underCheck_snoc (accounted.checked m old o entry (same ▸ state) (check o checked))
        (silent state o checked) (here entry)
    | asked request asks _ check =>
      obtain ⟨old, entry⟩ := move_known known (by simp [state])
      rw [check o checked]
      exact underCheck_asked asks (here entry)
  · intro m h known state
    rw [after_snoc] at known
    cases passage known with
    | calm calm => simp [state] at calm
    | asked request asks checked => simp [state] at checked
    | kept old entry same =>
      exact failedCheck_snoc (accounted.removed m old entry (same ▸ state)) (here entry) x
    | failed old o entry _ before checked fails =>
      exact failedCheck_of_underCheck (accounted.checked m old o entry before checked) fails
        (here entry)

theorem accounted_after {d : Detector} (fresh : d.Accounted []) (moves : List Move) :
    d.Accounted moves := by
  induction moves using List.reverseRecOn with
  | nil => exact fresh
  | append_singleton moves x ih => exact accounted_snoc ih x

theorem failedCheck_of_removal {d : Detector} {moves : List Move} {x : Move} {a : Action}
    {m : Member} (accounted : d.Accounted moves) (wanted : a ∈ ((d.after moves).move x).2)
    (removes : a.removes m = true) : d.FailedCheck (moves ++ [x]) m := by
  obtain ⟨h, known, removed | ⟨state, o, checked, fails⟩⟩ := removal_cause wanted removes
  · exact failedCheck_snoc (accounted.removed m h known removed) (accounted.follows m h known).1 x
  · exact failedCheck_of_underCheck (accounted.checked m h o known state checked) fails
      (accounted.follows m h known).1

/-! ### Once for each stay -/

/-- A detector that installs a view itself does nothing else with that move. The view is the next one,
without those whose final check failed, and it is this member that coordinates without them. -/
theorem move_installs {d : Detector} {x : Move} {view : View}
    (wanted : .installView view ∈ (d.move x).2) :
    (d.move x).2 = [.installView view] ∧
      ∃ failed coordinator, d.view.coordinatorWithout failed = some coordinator ∧
        coordinator.same d.self = true ∧ view = d.view.successor d.self [] [] failed ∧
        (d.view.id ≠ View.lastId → (d.move x).1.view = view) := by
  rcases move_cases d x with quiet | ⟨received, moved⟩ | ⟨target, request, moved, -⟩
  · exact absurd (quiet.harmless _ wanted) (by simp [Action.isRemoval])
  · simp [moved] at wanted
  · rw [moved] at wanted ⊢
    rcases onFinalCheckFailed_cases d target request with same | ⟨h, o, -, -, -, -, same⟩
    · simp [same] at wanted
    · rw [same] at wanted ⊢
      rcases conclude_cases (d.markFailed target h) with quiet | ⟨e, sameSelf, sameView, -, removal⟩
      · exact absurd (quiet.harmless _ wanted) (by simp [Action.isRemoval])
      · rw [removal] at wanted ⊢
        rcases removeFailed_cases e ((d.markFailed target h).membersIn [.removed]) with
          ⟨-, asks⟩ | ⟨coordinator, elected, own, installed⟩
        · obtain ⟨asked, m, -, other⟩ := asks _ wanted
          contradiction
        · rw [installed] at wanted ⊢
          have next := Action.installView.inj (List.mem_singleton.mp wanted)
          have view_d : e.view = d.view := sameView
          have self_d : e.self = d.self := sameSelf
          refine ⟨by rw [next], _, coordinator, view_d ▸ elected, self_d ▸ own,
            by rw [next, view_d, self_d], fun below => ?_⟩
          rw [next]
          refine install_view ?_
          rw [View.successor_id, view_d]
          exact Int32.not_lt.mpr (Int32.le_of_lt (View.lt_next below))

/-- A detector watches for the same member all its life. -/
theorem move_self (d : Detector) (x : Move) : (d.move x).1.self = d.self := by
  have concludes : ∀ e : Detector, e.conclude.1.self = e.self := by
    intro e
    rcases conclude_cases e with quiet | ⟨f, self, -, -, removal⟩
    · exact quiet.self
    · rw [removal, ← self]
      rcases removeFailed_cases f (e.membersIn [.removed]) with ⟨same, -⟩ | ⟨c, -, -, installed⟩
      · rw [same]
      · rw [installed]
        exact install_self f _
  rcases move_cases d x with quiet | ⟨view, moved⟩ | ⟨target, request, moved, -⟩
  · exact quiet.self
  · rw [moved]
    exact install_self d view
  · rw [moved]
    rcases onFinalCheckFailed_cases d target request with same | ⟨h, o, -, -, -, -, same⟩
    · rw [same]
    · rw [same]
      exact concludes _

/-- The view numbers have not ended when any of the moves begins. -/
def Numbered (d : Detector) (moves : List Move) : Prop :=
  ∀ part x rest, moves = part ++ x :: rest → (d.after part).view.id ≠ View.lastId

theorem crashes_none {actions : List Action} {m : Member}
    (silent : ∀ view, .installView view ∈ actions → m.isIn view.crashed = false) :
    actions.countP (·.crashes m) = 0 := by
  refine List.countP_eq_zero.mpr ?_
  intro a member
  cases a <;> simp [Action.crashes]
  case installView view => exact silent view member

/-- A detector that removes a member itself has no more of it in its view. -/
theorem crashes_once {d : Detector} {m : Member} {stay : List Move} (stays : d.Stays m stay)
    (numbered : d.Numbered stay) : (d.wants stay).countP (·.crashes m) ≤ 1 := by
  induction stay generalizing d with
  | nil => simp [wants]
  | cons x rest ih =>
    have below := numbered [] x rest rfl
    obtain ⟨-, later⟩ := (stays_cons d m x rest).mp stays
    have further := ih later fun part y tail split =>
      numbered (x :: part) y tail (by rw [split]; rfl)
    simp only [wants, List.countP_append]
    by_cases named : ∃ view, .installView view ∈ (d.move x).2 ∧ m.isIn view.crashed = true
    · obtain ⟨view, wanted, crashed⟩ := named
      obtain ⟨alone, failed, -, -, -, next, goesOn⟩ := move_installs wanted
      -- The view that names it is without it, so the stay ends here.
      have ended : rest = [] := by
        cases rest with
        | nil => rfl
        | cons y tail =>
          have present := later [] y tail rfl
          rw [after_nil, goesOn below, next, View.contains_successor] at present
          rw [next, View.crashed_successor] at crashed
          rw [present.2.2] at crashed
          simp at crashed
      rw [alone, ended]
      simp only [wants, List.countP_nil, Nat.add_zero]
      exact List.countP_le_length
    · have none : (d.move x).2.countP (·.crashes m) = 0 := crashes_none fun view wanted => by
        cases crashed : m.isIn view.crashed with
        | false => rfl
        | true => exact absurd ⟨view, wanted, crashed⟩ named
      omega

/-- In every run of a detector a member is removed, by the detector's own view or by a request to the
coordinator, only after a final check in its present stay that nothing answered and that failed. The
detector's own views name a member once for each stay and are numbered without gaps. -/
theorem removals_of_run (self : Member) (view : View) (settings : Settings) (policy : LossPolicy)
    (now : Nat) (moves : List Move) :
    let fresh := create self view settings policy now
    let d := fresh.after moves
    (∀ x a m, a ∈ (d.move x).2 → a.removes m = true → fresh.FailedCheck (moves ++ [x]) m) ∧
      (∀ m stay, d.Stays m stay → d.Numbered stay → (d.wants stay).countP (·.crashes m) ≤ 1) ∧
      (∀ x next, .installView next ∈ (d.move x).2 → d.view.id ≠ View.lastId →
        next.id.toInt = d.view.id.toInt + 1) := by
  intro fresh d
  have accounted : fresh.Accounted moves :=
    accounted_after (accounted_create self view settings policy now) moves
  refine ⟨?_, ?_, ?_⟩
  · intro x a m wanted removes
    exact failedCheck_of_removal accounted wanted removes
  · intro m stay stays numbered
    exact crashes_once stays numbered
  · intro x next wanted below
    obtain ⟨-, failed, -, -, -, same, -⟩ := move_installs wanted
    rw [same, View.successor_id, View.toInt_next below]

/-- A detector of the first of two members, which checks the second at the first missed heartbeat. -/
def ofPair : Detector :=
  let first := Member.peer 1
  create first ⟨1, first, [first, .peer 2], [], []⟩ ⟨⟨1⟩, ⟨1⟩, ⟨1⟩, 1, false, .listed⟩ (.count 50) 0

def silence : List Move :=
  [.handle .heartbeatTick, .handle (.heartbeatTimeout (.peer 2) 1)]

theorem ofPair_removes :
    ofPair.FailedCheck (silence ++ [.handle (.finalCheckTimeout (.peer 2) 2)]) (.peer 2) :=
  (removals_of_run _ _ _ _ _ silence).1 (.handle (.finalCheckTimeout (.peer 2) 2))
    (.installView (ofPair.view.successor (.peer 1) [] [] [.peer 2])) (.peer 2) (by decide) (by decide)

end Cohort.Detector
