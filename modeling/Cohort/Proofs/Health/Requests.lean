import Cohort.Proofs.Health.Fate
import Cohort.Proofs.Health.Ward

/-! The requests of a detector. It numbers them one after the other, and what it waits for is always a
request that it has sent. A timer may run out long after its request was settled: then nobody waits for
that number any more, and since no request gets it again, the timer's event means nothing. -/

namespace Cohort.Detector

/-! ### What is asked -/

/-- The request that an action sends, as the timer that waits for its answer knows it. -/
def Action.asks? : Action → Option Expiry
  | .sendHeartbeat m request => some (.heartbeat m.identity request)
  | .sendFinalCheck m request => some (.finalCheck m.identity request)
  | _ => none

def Expiry.request? : Expiry → Option UInt64
  | .round => none
  | .heartbeat _ request | .finalCheck _ request => some request

def asked (actions : List Action) : List Expiry := actions.filterMap Action.asks?

/-- The numbers of the requests that some actions send, in order. -/
def issued (actions : List Action) : List UInt64 := (asked actions).filterMap Expiry.request?

@[simp] theorem asked_append (a b : List Action) : asked (a ++ b) = asked a ++ asked b :=
  List.filterMap_append

@[simp] theorem issued_append (a b : List Action) : issued (a ++ b) = issued a ++ issued b := by
  simp [issued]

theorem requests_eq (actions : List Action) : requests actions = (issued actions).length := by
  induction actions with
  | nil => rfl
  | cons a rest ih =>
    unfold requests at ih ⊢
    cases a <;> simp [issued, asked, Action.asks?, Expiry.request?] at ih ⊢ <;> exact ih

theorem asked_none {actions : List Action} (silent : ∀ a ∈ actions, a.asks? = none) : asked actions = [] :=
  List.filterMap_eq_nil_iff.mpr silent

theorem mem_issued {p : Expiry} {request : UInt64} {actions : List Action} (member : p ∈ asked actions)
    (numbered : p.request? = some request) : request ∈ issued actions :=
  List.mem_filterMap.mpr ⟨p, member, numbered⟩

/-- Some numbers follow each other from a first one on, up to the one that comes next. -/
inductive Consecutive : UInt64 → List UInt64 → UInt64 → Prop where
  | nil (next : UInt64) : Consecutive next [] next
  | cons {first next : UInt64} {ids : List UInt64} :
      Consecutive (first + 1) ids next → Consecutive first (first :: ids) next

theorem Consecutive.append {first middle next : UInt64} {ids more : List UInt64}
    (begins : Consecutive first ids middle) (continues : Consecutive middle more next) :
    Consecutive first (ids ++ more) next := by
  induction begins with
  | nil => exact continues
  | cons _ ih => exact .cons (ih continues)

/-- As long as there are numbers left they are those of the counter, in order. -/
theorem Consecutive.toNat {first next : UInt64} {ids : List UInt64} (follow : Consecutive first ids next)
    (fits : first.toNat + ids.length < UInt64.size) :
    ids.map UInt64.toNat = List.range' first.toNat ids.length ∧
      next.toNat = first.toNat + ids.length := by
  induction follow with
  | nil => exact ⟨rfl, rfl⟩
  | @cons first next ids _ ih =>
    rw [List.length_cons] at fits ⊢
    have later : (first + 1).toNat = first.toNat + 1 := Balanced.toNat_next (by omega)
    rw [later] at ih
    obtain ⟨numbers, ends⟩ := ih (by omega)
    refine ⟨?_, by omega⟩
    rw [List.map_cons, numbers, List.range'_succ]

/-! ### What is waited for -/

/-- Entries of a changed table are those from before, but for what the change brings. -/
theorem held_update {table : Table} {m : Member} {f : Health → Health} {p : Nat × Expiry → Prop}
    (keeps : ∀ h, ∀ entry ∈ (f h).held m.identity, entry ∈ h.held m.identity ∨ p entry)
    {entry : Nat × Expiry} (member : entry ∈ (table.update m f).held) :
    entry ∈ table.held ∨ p entry := by
  obtain ⟨changed, found, own⟩ := List.mem_flatMap.mp member
  obtain ⟨⟨key, h⟩, there, rfl⟩ := List.mem_map.mp found
  have before : ∀ entry ∈ h.held key.identity, entry ∈ table.held := fun entry held =>
    List.mem_flatMap.mpr ⟨(key, h), there, held⟩
  cases alike : key.same m with
  | true =>
    simp only [alike, if_true, (Member.same_iff key m).mp alike] at own before
    exact (keeps h entry own).imp_left (before entry)
  | false =>
    simp only [alike] at own
    exact Or.inl (before entry own)

/-- Some work of a detector: it numbers its requests from the next number on, and waits for nothing but
what it waited for before and what it asks. -/
structure Issues (d : Detector) (result : Detector × List Action) : Prop where
  numbered : Consecutive d.nextRequest (issued result.2) result.1.nextRequest
  waits : ∀ entry ∈ result.1.health.held, entry ∈ d.health.held ∨ entry.2 ∈ asked result.2

namespace Issues

variable {d e : Detector} {actions : List Action} {first second : Detector × List Action}

/-- Nothing is asked, and nothing new is waited for. -/
theorem of_held (next : e.nextRequest = d.nextRequest)
    (kept : ∀ entry ∈ e.health.held, entry ∈ d.health.held) : Issues d (e, []) where
  numbered := by
    dsimp only
    rw [next]
    exact .nil _
  waits entry held := Or.inl (kept entry held)

theorem of_health (next : e.nextRequest = d.nextRequest) (same : e.health = d.health) :
    Issues d (e, []) :=
  .of_held next fun _ held => same ▸ held

theorem refl (d : Detector) : Issues d (d, []) := .of_health rfl rfl

theorem trans (before : Issues d first) (after : Issues first.1 second) :
    Issues d (second.1, first.2 ++ second.2) where
  numbered := by
    rw [issued_append]
    exact before.numbered.append after.numbered
  waits entry held := by
    rw [asked_append, List.mem_append]
    rcases after.waits entry held with old | new
    · exact (before.waits entry old).imp_right Or.inl
    · exact Or.inr (Or.inr new)

/-- What is announced besides does not matter, as long as it is no request. -/
theorem announce (issues : Issues d (e, actions)) (news : List Action)
    (silent : ∀ a ∈ news, a.asks? = none) : Issues d (e, news ++ actions) where
  numbered := by
    rw [issued_append, issued, asked_none silent]
    exact issues.numbered
  waits entry held := by
    rw [asked_append, asked_none silent]
    exact issues.waits entry held

theorem say (issues : Issues d (e, [])) {news : List Action} (silent : ∀ a ∈ news, a.asks? = none) :
    Issues d (e, news) := by
  have announced := issues.announce news silent
  rwa [List.append_nil] at announced

/-- A change of one member's health that adds no request. -/
theorem mark (d : Detector) (m : Member) (f : Health → Health)
    (keeps : ∀ h, ∀ entry ∈ (f h).held m.identity, entry ∈ h.held m.identity) :
    Issues d (d.update m f, []) :=
  .of_held rfl fun _ held =>
    (held_update (p := fun _ => False)
      (fun h entry own => Or.inl (keeps h entry own)) held).resolve_right id

/-- One request gets the next number, and is all that one member's health has to wait for besides. -/
theorem ask {m : Member} {f : Health → Health} {a : Action} {p : Expiry} (asks : a.asks? = some p)
    (number : p.request? = some d.nextRequest) (next : e.nextRequest = d.nextRequest + 1)
    (kept : ∀ entry ∈ e.health.held, entry ∈ d.health.held)
    (waits : ∀ h, ∀ entry ∈ (f h).held m.identity, entry ∈ h.held m.identity ∨ entry.2 = p) :
    Issues d (e.update m f, [a]) := by
  have only : asked [a] = [p] := by simp [asked, asks]
  constructor
  · simp only [issued, only, List.filterMap_cons_some number, List.filterMap_nil, update, next]
    exact .cons (.nil _)
  · intro entry held
    rw [only, List.mem_singleton]
    exact (held_update waits held).imp_left (kept entry)

end Issues

section
variable (d : Detector) (m : Member)

theorem disarm_issues (ids : List Nat) : Issues d (d.disarm ids, []) := .of_health rfl rfl

theorem scheduleTick_issues (delay : Span) : Issues d (d.scheduleTick delay, []) := .of_health rfl rfl

theorem cancelRequests_issues : Issues d (d.cancelRequests m, []) := by
  unfold cancelRequests
  split
  · exact .refl d
  · refine (d.disarm_issues _).trans (.mark _ m Health.withoutRequests fun h entry own => ?_)
    cases own

theorem cancelRequests_nextRequest : (d.cancelRequests m).nextRequest = d.nextRequest := by
  unfold cancelRequests
  split <;> rfl

theorem beat_issues : Issues d ((d.beat m).1, [(d.beat m).2]) := by
  refine Issues.ask (f := fun h => { h with heartbeat := some ⟨d.nextRequest, d.timers.nextId⟩ })
    rfl rfl rfl (fun _ => id) fun h entry own => ?_
  rcases List.mem_append.mp own with new | old
  · exact Or.inr (List.mem_singleton.mp new ▸ rfl)
  · exact Or.inl (List.mem_append_right _ old)

theorem beatAll_issues (members : List Member) : Issues d (d.beatAll members) := by
  induction members generalizing d with
  | nil => exact .refl d
  | cons m rest ih => exact (d.beat_issues m).trans (ih _)

theorem onTick_issues : Issues d d.onTick := by
  have beaten := (d.beatAll_issues d.addressees).trans
    (scheduleTick_issues _ d.settings.heartbeatInterval)
  rw [List.append_nil] at beaten
  have same := (d.beatAll_declines d.addressees).continues.settings
  simpa only [onTick, same] using beaten

theorem beginFinalCheck_issues : Issues d (d.beginFinalCheck m) := by
  let armed : Detector :=
    (d.request.1.arm d.settings.finalCheckTimeout (.finalCheckTimeout m d.nextRequest)).1
  have kept : ∀ entry ∈ (armed.cancelRequests m).health.held, entry ∈ d.health.held :=
    fun entry held => ((armed.cancelRequests_issues m).waits entry held).resolve_right List.not_mem_nil
  refine Issues.ask (f := fun h => { h with
      state := .finalCheck, finalCheck := some ⟨d.nextRequest, d.timers.nextId⟩ })
    rfl rfl (armed.cancelRequests_nextRequest m) kept fun h entry own => ?_
  rcases List.mem_append.mp own with old | new
  · exact Or.inl (List.mem_append_left _ old)
  · exact Or.inr (List.mem_singleton.mp new ▸ rfl)

theorem checkThreshold_issues : Issues d (d.checkThreshold m) := by
  unfold checkThreshold
  split
  · exact .refl d
  · split
    · exact d.beginFinalCheck_issues m
    · exact .refl d

theorem onHeartbeatTimeout_issues (request : UInt64) : Issues d (d.onHeartbeatTimeout m request) := by
  unfold onHeartbeatTimeout
  split
  · exact .refl d
  · split
    · exact .refl d
    · refine ((Issues.mark d m Health.miss ?_).trans (checkThreshold_issues _ m)).announce _ ?_
      · exact fun h entry own => List.mem_append_right _ own
      · intro a member
        split at member
        · rw [List.mem_singleton.mp member]
          rfl
        · cases member

/-- A report is no request. -/
theorem report_issues (reporter : Member) :
    Issues d (d.update m fun h => { h.report reporter with state := .suspected }, []) :=
  .mark d m _ fun h _ own => h.held_report reporter m.identity ▸ own

theorem onSuspect_issues (reporter suspect : Member) : Issues d (d.onSuspect reporter suspect) := by
  unfold onSuspect
  split
  · exact .refl d
  · split
    · exact .refl d
    · split
      · exact .refl d
      · exact (d.report_issues suspect reporter).trans (checkThreshold_issues _ suspect)

theorem onSuspects_issues (reporter : Member) (suspects : List Suspicion) :
    Issues d (d.onSuspects reporter suspects) := by
  induction suspects generalizing d with
  | nil => exact .refl d
  | cons s rest ih => exact (d.onSuspect_issues reporter s.suspect).trans (ih _)

theorem onRemoveRequested_issues (requester : Member) : Issues d (d.onRemoveRequested requester m) := by
  unfold onRemoveRequested
  split
  · exact .refl d
  · split
    · exact .refl d
    · split
      · exact (d.report_issues m requester).trans (beginFinalCheck_issues _ m)
      · exact (d.report_issues m requester).trans (beginFinalCheck_issues _ m)
      · exact .mark d m _ fun h _ own => h.held_report requester m.identity ▸ own
      · exact .refl d

theorem settleHeartbeat_issues (h : Health) (answered : Bool) :
    Issues d (d.settleHeartbeat m h answered, []) := by
  unfold settleHeartbeat
  split
  · exact (d.disarm_issues _).trans (.mark _ m (fun h => { h with heartbeat := none })
      fun h _ own => List.mem_append_right _ own)
  · exact .refl d

theorem checkHealed_issues : Issues d (d.checkHealed, []) := by
  unfold checkHealed
  split <;> exact .of_health rfl rfl

theorem onResponse_issues (request : UInt64) (final : Bool) :
    Issues d (d.onResponse m request final, []) := by
  rcases onResponse_cases d m request final with
    ⟨-, same⟩ | ⟨h, -, ⟨-, same⟩ | ⟨-, same⟩ | same⟩ <;> rw [same]
  · exact .refl d
  · exact .refl d
  · exact (d.settleHeartbeat_issues m h _).trans
      (.mark _ m (fun h => { h with missed := 0 }) fun _ _ own => own)
  · refine .trans (.trans ((d.settleHeartbeat_issues m h _).trans (disarm_issues _ _))
      (.mark _ m _ fun h _ own => ?_)) (checkHealed_issues _)
    exact List.mem_append_left _ ((List.mem_append.mp own).resolve_right List.not_mem_nil)

theorem install_issues (view : View) : Issues d (d.install view, []) := by
  by_cases older : view.id < d.view.id
  · rw [install_older older]
    exact .refl d
  · refine .of_held ?_ fun entry held => ?_
    · simp only [install, older, if_false]
      rfl
    · rw [health_install older, held_track] at held
      exact (d.health.held_partition (view.contains ·)).mem_iff.mpr (List.mem_append_right _ held)

theorem resuspect_issues : Issues d (d.resuspect m, []) :=
  (d.cancelRequests_issues m).trans
    (.mark _ m (fun h => { h with state := .suspected, missed := 0, reporters := [] }) fun _ _ own => own)

theorem resuspectAll_issues (members : List Member) : Issues d (members.foldl resuspect d, []) := by
  induction members generalizing d with
  | nil => exact .refl d
  | cons m rest ih => exact (d.resuspect_issues m).trans (ih _)

theorem removeFailed_issues (failed : List Member) : Issues d (d.removeFailed failed) := by
  unfold removeFailed
  split
  · exact .refl d
  · split
    · exact (d.install_issues _).say (by simp [Action.asks?])
    · exact (Issues.refl d).say (by simp [Action.asks?])

theorem conclude_issues : Issues d d.conclude := by
  rcases conclude_verdict d with ⟨-, same⟩ | ⟨-, -, same⟩ | ⟨-, -, same⟩ <;> rw [same]
  · exact .refl d
  · have declared : Issues d (d.declare, []) :=
      (d.resuspectAll_issues d.unreachable).trans (Issues.of_health (e := d.declare) rfl rfl)
    refine declared.say fun a member => ?_
    split at member
    · cases member
    · rw [List.mem_singleton.mp member]
      rfl
  · have undivided : Issues d (d.undivided, []) := .of_health rfl rfl
    exact undivided.trans (d.undivided.removeFailed_issues _)

theorem onFinalCheckFailed_issues (request : UInt64) : Issues d (d.onFinalCheckFailed m request) := by
  rcases onFinalCheckFailed_cases d m request with same | ⟨h, o, -, -, -, -, same⟩ <;> rw [same]
  · exact .refl d
  · refine .trans (.trans (d.disarm_issues _) (.mark _ m _ fun h _ own => ?_)) (conclude_issues _)
    exact List.mem_append_left _ ((List.mem_append.mp own).resolve_right List.not_mem_nil)

theorem handle_issues (event : Event) : Issues d (d.handle event) := by
  cases event with
  | heartbeatTick => exact d.onTick_issues
  | heartbeatTimeout m request => exact d.onHeartbeatTimeout_issues m request
  | heartbeatResponse source request => exact d.onResponse_issues source request false
  | suspectReceived reporter suspects => exact d.onSuspects_issues reporter suspects
  | finalCheckTimeout m request => exact d.onFinalCheckFailed_issues m request
  | finalCheckResponse source request => exact d.onResponse_issues source request true
  | finalCheckFailed m request => exact d.onFinalCheckFailed_issues m request
  | removeRequested requester m _ => exact d.onRemoveRequested_issues m requester
  | viewInstalled view => exact d.install_issues view

end

/-! ### Stale events -/

/-- An event is about a request that the detector does not wait for. -/
def Stale (d : Detector) : Event → Prop
  | .heartbeatTimeout m request => ∀ h, d.health.get? m = some h → awaits h.heartbeat request = false
  | .finalCheckTimeout m request | .finalCheckFailed m request | .finalCheckResponse m request =>
    ∀ h, d.health.get? m = some h → awaits h.finalCheck request = false
  | _ => False

theorem onFinalCheckFailed_idle {d : Detector} {m : Member} {request : UInt64}
    (idle : ∀ h, d.health.get? m = some h → awaits h.finalCheck request = false) :
    d.onFinalCheckFailed m request = (d, []) := by
  refine onFinalCheckFailed_stale ?_
  rintro ⟨h, known, -, waits⟩
  rw [idle h known] at waits
  contradiction

theorem onResponse_idle {d : Detector} {m : Member} {request : UInt64}
    (idle : ∀ h, d.health.get? m = some h → awaits h.finalCheck request = false) :
    d.onResponse m request true = d := by
  cases known : d.health.get? m with
  | none => simp only [onResponse, known]
  | some h => exact onResponse_unheard known (Or.inr ⟨rfl, idle h known⟩)

/-- Such an event changes nothing and leads to nothing. -/
theorem handle_stale {d : Detector} {event : Event} (stale : d.Stale event) : d.handle event = (d, []) := by
  cases event with
  | heartbeatTimeout m request => exact onHeartbeatTimeout_stale stale
  | finalCheckTimeout m request => exact onFinalCheckFailed_idle stale
  | finalCheckFailed m request => exact onFinalCheckFailed_idle stale
  | finalCheckResponse m request => exact congrArg (·, []) (onResponse_idle stale)
  | heartbeatTick | heartbeatResponse | suspectReceived | removeRequested | viewInstalled => cases stale

/-- The request of an awaited answer has an entry. -/
theorem held_of_known {table : Table} {m : Member} {h : Health} {entry : Nat × Expiry}
    (known : table.get? m = some h) (own : entry ∈ h.held m.identity) : entry ∈ table.held := by
  obtain ⟨⟨key, found⟩, first, rfl⟩ := Option.map_eq_some_iff.mp known
  have alike : key.same m = true := by simpa using List.find?_some first
  rw [← (Member.same_iff key m).mp alike] at own
  exact List.mem_flatMap.mpr ⟨(key, found), List.mem_of_find?_eq_some first, own⟩

/-- A timer's event that is not stale is about a request that is still waited for. -/
theorem held_of_fresh {d : Detector} {event : Event} {p : Expiry} (expires : event.expiry? = some p)
    (answerable : p ≠ .round) (fresh : ¬ d.Stale event) : ∃ id, (id, p) ∈ d.health.held := by
  cases event <;> cases expires
  case heartbeatTick => contradiction
  case heartbeatTimeout m request =>
    simp only [Stale, not_forall, Bool.not_eq_false] at fresh
    obtain ⟨h, known, waits⟩ := fresh
    obtain ⟨o, beats, rfl⟩ := (awaits_iff _ _).mp waits
    exact ⟨o.timer, held_of_known known (by simp [Health.held, beats])⟩
  case finalCheckTimeout m request =>
    simp only [Stale, not_forall, Bool.not_eq_false] at fresh
    obtain ⟨h, known, waits⟩ := fresh
    obtain ⟨o, check, rfl⟩ := (awaits_iff _ _).mp waits
    exact ⟨o.timer, held_of_known known (by simp [Health.held, check])⟩

/-! ### Detectors at work -/

namespace Ward

/-- What the detector wants done about an event, if it handles it. -/
def acted (w : Ward) (event : Event) : List Action :=
  let actions := (w.detector.handle event).2
  if w.detector.nextRequest.toNat + requests actions < UInt64.size then actions else []

/-- What the detector wants done at a move. -/
def acts (w : Ward) : Move → List Action
  | .clock _ | .turn _ => []
  | .report event => if event.expiry?.isSome then [] else w.acted event
  | .handle index =>
    match w.queue[index]? with
    | none => []
    | some event => w.acted event

def wants (w : Ward) : List Move → List Action
  | [] => []
  | x :: rest => w.acts x ++ (w.move x).wants rest

theorem after_append (w : Ward) (earlier later : List Move) :
    w.after (earlier ++ later) = (w.after earlier).after later := List.foldl_append

theorem wants_append (w : Ward) (earlier later : List Move) :
    w.wants (earlier ++ later) = w.wants earlier ++ (w.after earlier).wants later := by
  induction earlier generalizing w with
  | nil => rfl
  | cons x rest ih =>
    rw [List.cons_append, wants, ih, ← List.append_assoc]
    rfl

section
variable {w : Ward}

theorem handled_issues (w : Ward) (event : Event) (queue : List Event) :
    Issues w.detector ((w.handled event queue).detector, w.acted event) ∧
      w.detector.nextRequest.toNat + (issued (w.acted event)).length < UInt64.size := by
  unfold handled acted
  dsimp only
  split
  · rename_i fits
    exact ⟨handle_issues _ event, requests_eq _ ▸ fits⟩
  · exact ⟨.refl _, w.detector.nextRequest.toNat_lt⟩

/-- What a detector at work does next. -/
theorem move_issues (w : Ward) (x : Move) :
    Issues w.detector ((w.move x).detector, w.acts x) ∧
      w.detector.nextRequest.toNat + (issued (w.acts x)).length < UInt64.size := by
  have still : w.detector.nextRequest.toNat + (issued []).length < UInt64.size :=
    w.detector.nextRequest.toNat_lt
  cases x with
  | clock now => exact ⟨.of_health rfl rfl, still⟩
  | turn time => exact ⟨.of_health rfl rfl, still⟩
  | report event =>
    simp only [move, acts]
    split
    · exact ⟨.refl _, still⟩
    · exact w.handled_issues event _
  | handle index =>
    cases found : w.queue[index]? with
    | none =>
      simp only [move, acts, found]
      exact ⟨.refl _, still⟩
    | some event =>
      simp only [move, acts, found]
      exact w.handled_issues event _

/-- All requests of a run have numbers in order, each its own. -/
theorem numbered_wants (w : Ward) (moves : List Move) :
    (issued (w.wants moves)).map UInt64.toNat =
        List.range' w.detector.nextRequest.toNat (issued (w.wants moves)).length ∧
      (w.after moves).detector.nextRequest.toNat =
        w.detector.nextRequest.toNat + (issued (w.wants moves)).length := by
  induction moves generalizing w with
  | nil => exact ⟨rfl, rfl⟩
  | cons x rest ih =>
    obtain ⟨issues, fits⟩ := w.move_issues x
    obtain ⟨first, next⟩ := issues.numbered.toNat fits
    obtain ⟨others, last⟩ := ih (w.move x)
    have parts : issued (w.wants (x :: rest)) = issued (w.acts x) ++ issued ((w.move x).wants rest) :=
      issued_append _ _
    rw [parts, List.map_append, first, others, next, List.length_append]
    refine ⟨List.range'_append_1, ?_⟩
    exact last.trans (by rw [next, Nat.add_assoc])

theorem nodup_issued (w : Ward) (moves : List Move) : (issued (w.wants moves)).Nodup := by
  refine List.Nodup.of_map UInt64.toNat ?_
  rw [(w.numbered_wants moves).1]
  exact List.nodup_range'

/-- What is waited for at the end of some moves, and was not asked in them, was waited for before. -/
theorem held_before {id : Nat} {p : Expiry} {moves : List Move}
    (held : (id, p) ∈ (w.after moves).detector.health.held) (unasked : p ∉ asked (w.wants moves)) :
    (id, p) ∈ w.detector.health.held := by
  induction moves generalizing w with
  | nil => exact held
  | cons x rest ih =>
    have parts : asked (w.wants (x :: rest)) = asked (w.acts x) ++ asked ((w.move x).wants rest) :=
      asked_append _ _
    rw [parts, List.mem_append, not_or] at unasked
    exact ((w.move_issues x).1.waits _ (ih held unasked.2)).resolve_right unasked.1

/-- An event that waits after a move waited before, or is that of a timer that was running. -/
theorem queue_move (balances : w.Balances) {x : Move} {event : Event} (member : event ∈ (w.move x).queue) :
    event ∈ w.queue ∨ ∃ t ∈ w.detector.timers.waiting, t.task = event := by
  have handled : ∀ taken : Event, ∀ queue : List Event, (∀ event ∈ queue, event ∈ w.queue) →
      event ∈ (w.handled taken queue).queue → event ∈ w.queue := by
    intro taken queue less waits
    unfold Ward.handled at waits
    dsimp only at waits
    split at waits
    · exact less event waits
    · exact waits
  cases x with
  | clock now => exact Or.inl member
  | turn time =>
    change event ∈ w.queue ++ (w.detector.timers.turn time).2.ran.map (·.task) at member
    rcases List.mem_append.mp member with old | new
    · exact Or.inl old
    · obtain ⟨t, ran, rfl⟩ := List.mem_map.mp new
      cases found : (w.detector.timers.turn time).2 with
      | idle | stale =>
        rw [found] at ran
        cases ran
      | runs task =>
        rw [found] at ran
        obtain rfl := List.mem_singleton.mp ran
        exact Or.inr ⟨t, (balances.ledger.coherent.of_ran found).1, rfl⟩
  | report taken =>
    simp only [move] at member
    split at member
    · exact Or.inl member
    · exact Or.inl (handled taken _ (fun _ => id) member)
  | handle index =>
    cases found : w.queue[index]? with
    | none =>
      simp only [move, found] at member
      exact Or.inl member
    | some taken =>
      simp only [move, found] at member
      exact Or.inl (handled taken _ (fun _ => List.mem_of_mem_eraseIdx) member)

/-- A timer that runs is held for an answer, unless it is that of the rounds. -/
theorem held_of_waiting (balances : w.Balances) {t : Armed Event} {p : Expiry}
    (waits : t ∈ w.detector.timers.waiting) (expires : t.task.expiry? = some p) (answerable : p ≠ .round) :
    (t.id, p) ∈ w.detector.health.held := by
  obtain ⟨q, purpose, entry⟩ := balances.ledger.entered t waits
  obtain rfl : p = q := Option.some.inj (expires.symm.trans purpose)
  refine (List.mem_append.mp entry).resolve_left fun round => answerable ?_
  obtain ⟨_, -, same⟩ := List.mem_map.mp round
  exact (congrArg Prod.snd same).symm

end

/-- Every answer that is waited for was asked for. -/
structure Asks (w : Ward) (actions : List Action) : Prop where
  held : ∀ entry ∈ w.detector.health.held, entry.2 ∈ asked actions
  queued : ∀ event ∈ w.queue, ∀ p, event.expiry? = some p → p ≠ .round → p ∈ asked actions

theorem asks_move {w : Ward} {actions : List Action} (balances : w.Balances) (asks : w.Asks actions)
    (x : Move) : (w.move x).Asks (actions ++ w.acts x) where
  held entry held := by
    rw [asked_append, List.mem_append]
    exact ((w.move_issues x).1.waits entry held).imp_left (asks.held entry)
  queued event member p expires answerable := by
    rw [asked_append, List.mem_append]
    rcases queue_move balances member with old | ⟨t, waits, rfl⟩
    · exact Or.inl (asks.queued event old p expires answerable)
    · exact Or.inl (asks.held _ (held_of_waiting balances waits expires answerable))

section
variable (self : Member) (view : View) (settings : Settings) (policy : LossPolicy) (now : UInt64)

theorem asks_after (moves : List Move) :
    ((opened self view settings policy now).after moves).Asks
      ((opened self view settings policy now).wants moves) := by
  induction moves using List.reverseRecOn with
  | nil =>
    refine ⟨fun entry held => ?_, fun event member => nomatch member⟩
    have empty : (opened self view settings policy now).detector.health.held = [] :=
      held_track self [] view
    rw [show (opened self view settings policy now).after [] =
        opened self view settings policy now from rfl,
      empty] at held
    cases held
  | append_singleton earlier x ih =>
    rw [after_snoc, wants_append]
    have last : ((opened self view settings policy now).after earlier).wants [x] =
        ((opened self view settings policy now).after earlier).acts x := List.append_nil _
    rw [last]
    exact asks_move (balances_after self view settings policy now earlier) ih x

theorem asked_of_inFlight {moves : List Move} {event : Event} {p : Expiry}
    (member : event ∈ ((opened self view settings policy now).after moves).inFlight)
    (expires : event.expiry? = some p) (answerable : p ≠ .round) :
    p ∈ asked ((opened self view settings policy now).wants moves) := by
  have asks := asks_after self view settings policy now moves
  rcases List.mem_append.mp member with runs | waits
  · obtain ⟨t, waiting, rfl⟩ := List.mem_map.mp runs
    have balances := balances_after self view settings policy now moves
    exact asks.held _ (held_of_waiting balances waiting expires answerable)
  · exact asks.queued event waits p expires answerable

end

theorem mem_asked_wants {w : Ward} {p : Expiry} {moves : List Move} (member : p ∈ asked (w.wants moves)) :
    ∃ earlier x later, moves = earlier ++ x :: later ∧ p ∈ asked ((w.after earlier).acts x) := by
  induction moves generalizing w with
  | nil => cases member
  | cons x rest ih =>
    have parts : asked (w.wants (x :: rest)) = asked (w.acts x) ++ asked ((w.move x).wants rest) :=
      asked_append _ _
    rw [parts, List.mem_append] at member
    rcases member with first | further
    · exact ⟨[], x, rest, rfl, first⟩
    · obtain ⟨earlier, y, later, rfl, asks⟩ := ih further
      exact ⟨x :: earlier, y, later, rfl, asks⟩

theorem exists_request {p : Expiry} (answerable : p ≠ .round) : ∃ request, p.request? = some request := by
  cases p with
  | round => contradiction
  | heartbeat who request => exact ⟨request, rfl⟩
  | finalCheck who request => exact ⟨request, rfl⟩

/-- What was asked at some move and is waited for later was waited for all the time. -/
theorem held_since {w : Ward} {p : Expiry} {id : Nat} {earlier part rest : List Move} {x : Move}
    (answerable : p ≠ .round) (asks : p ∈ asked ((w.after earlier).acts x))
    (held : (id, p) ∈ (w.after (earlier ++ x :: (part ++ rest))).detector.health.held) :
    (id, p) ∈ (w.after (earlier ++ x :: part)).detector.health.held := by
  have joined : earlier ++ x :: (part ++ rest) = (earlier ++ x :: part) ++ rest := by simp
  obtain ⟨request, numbered⟩ := exists_request answerable
  have distinct := w.nodup_issued (earlier ++ x :: (part ++ rest))
  rw [joined, wants_append, issued_append] at distinct
  rw [joined, after_append] at held
  have first : request ∈ issued (w.wants (earlier ++ x :: part)) := by
    rw [wants_append, issued_append]
    refine List.mem_append_right _ (mem_issued (p := p) ?_ numbered)
    exact (asked_append _ _).symm ▸ List.mem_append_left _ asks
  -- a second request of that number there is not
  refine held_before held fun again => ?_
  exact (List.nodup_append.mp distinct).2.2 request first request (mem_issued again numbered) rfl

/-- Events about requests that are not waited for change nothing and lead to nothing. No two requests of
a run have the same number, so the event of a timer is about the one request for which it was armed: if
it is not stale when it is handled, the detector has waited for that answer ever since it asked. -/
theorem stale_events_ignored :
    (∀ (d : Detector) (event : Event), d.Stale event → d.handle event = (d, [])) ∧
      ∀ (self : Member) (view : View) (settings : Settings) (policy : LossPolicy) (now : UInt64)
        (moves : List Move),
        let begun := opened self view settings policy now
        (issued (begun.wants moves)).Nodup ∧
          ∀ event ∈ (begun.after moves).inFlight, ∀ p, event.expiry? = some p → p ≠ .round →
            ∃ earlier x later, moves = earlier ++ x :: later ∧
              p ∈ asked ((begun.after earlier).acts x) ∧
              (¬ (begun.after moves).detector.Stale event →
                ∃ id, ∀ part rest, later = part ++ rest →
                  (id, p) ∈ (begun.after (earlier ++ x :: part)).detector.health.held) := by
  refine ⟨fun d event => handle_stale, fun self view settings policy now moves => ?_⟩
  intro begun
  refine ⟨begun.nodup_issued moves, fun event member p expires answerable => ?_⟩
  have wanted := asked_of_inFlight self view settings policy now member expires answerable
  obtain ⟨earlier, x, later, rfl, asks⟩ := mem_asked_wants wanted
  refine ⟨earlier, x, later, rfl, asks, fun fresh => ?_⟩
  obtain ⟨id, held⟩ := held_of_fresh expires answerable fresh
  refine ⟨id, fun part rest split => ?_⟩
  subst split
  exact held_since answerable asks held

/-- A detector of the first of two members. -/
def ofTwo : Ward :=
  opened (.peer 1) ⟨1, .peer 1, [.peer 1, .peer 2], [], []⟩ ⟨⟨5⟩, ⟨1⟩, ⟨1⟩, 2, false, .listed⟩ (.count 50) 0

/-- The second member is asked and does not answer in time. -/
def overdue : List Move := [.turn 0, .handle 0, .clock 2, .turn 2]

/-- Before that is noticed it leaves and comes back. -/
def rejoined : List Move :=
  overdue ++ [.report (.viewInstalled ⟨2, .peer 1, [.peer 1], [], []⟩),
    .report (.viewInstalled ⟨3, .peer 1, [.peer 1, .peer 2], [], []⟩)]

/-- The detector has waited for the answer since it asked; after the return it does not any more. -/
theorem rejoined_ignored :
    (∃ earlier x later, overdue = earlier ++ x :: later ∧
      .heartbeat (Member.peer 2).identity 1 ∈ asked ((ofTwo.after earlier).acts x) ∧
      ∃ id, ∀ part rest, later = part ++ rest → (id, .heartbeat (Member.peer 2).identity 1) ∈
        (ofTwo.after (earlier ++ x :: part)).detector.health.held) ∧
      (ofTwo.after rejoined).queue = [.heartbeatTimeout (.peer 2) 1] ∧
      (ofTwo.after rejoined).detector.handle (.heartbeatTimeout (.peer 2) 1) =
        ((ofTwo.after rejoined).detector, []) := by
  obtain ⟨ignored, followed⟩ := stale_events_ignored
  obtain ⟨-, follows⟩ := followed (.peer 1) ⟨1, .peer 1, [.peer 1, .peer 2], [], []⟩
    ⟨⟨5⟩, ⟨1⟩, ⟨1⟩, 2, false, .listed⟩ (.count 50) 0 overdue
  obtain ⟨earlier, x, later, split, asks, holds⟩ :=
    follows (.heartbeatTimeout (.peer 2) 1) (by decide) _ rfl (by decide)
  refine ⟨⟨earlier, x, later, split, asks, holds fun stale => ?_⟩, by decide, ignored _ _ fun h known => ?_⟩
  · have known : (ofTwo.after overdue).detector.health.get? (.peer 2) =
        some { heartbeat := some ⟨1, 1⟩ } := by decide
    exact absurd (stale _ known) (by decide)
  · have fresh : (ofTwo.after rejoined).detector.health.get? (.peer 2) = some {} := by decide
    cases fresh.symm.trans known
    rfl

end Ward

end Cohort.Detector
