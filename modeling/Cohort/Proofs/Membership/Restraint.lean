import Cohort.Proofs.Membership.Adoption
import Cohort.Proofs.Membership.Course
import Cohort.Proofs.Membership.Quest

/-! How often a member adopts a view. In one piece of its work it adopts at most one, and only when it
begins to join or goes on with that, takes a view in, or uses a turn; all else that it does is
`Steady`, but for the detector's handling of an event. -/

namespace Cohort

/-- Whether a payload asks for admission. -/
def Payload.isJoinRequest : Payload → Bool
  | .joinRequest _ => true
  | _ => false

/-- The view that a payload hands out. -/
def Payload.handed? : Payload → Option View
  | .installView view => some view
  | _ => none

/-- Whether work that waits for this is on its way into a group. -/
def Effect.isJoining : Effect → Bool
  | .joinAnswer _ => true
  | .deliver deliveries => deliveries.any (·.message.payload.isJoinRequest)
  | _ => false

/-- Whether work that waited for this may adopt a view when it goes on. -/
def Effect.opens (effect : Effect) : Bool := effect.isTurn || effect.isJoining

namespace Manager

variable {α β : Type}

/-- What is left of a piece that has come to a state adopts at most one view, and none unless it is
open to one; so do all the pieces after it, whatever state they begin in. -/
inductive Restrained : (opened : Bool) → Manager → Act α → Prop where
  | done {opened : Bool} {m : Manager} (result : α) : Restrained opened m (.done result)
  | read {opened : Bool} {m : Manager} {next : Manager → Act α} :
      Restrained opened m (next m) → Restrained opened m (.read next)
  | write {opened : Bool} {m n : Manager} {next : Act α} :
      Steady m n → Restrained opened n next → Restrained opened m (.write n next)
  | adopt {m n : Manager} {next : Act α} (view : View) :
      Steady (m.adopt view) n → Restrained false n next → Restrained true m (.write n next)
  /-- With its turn it makes one change, and adopts nothing afterwards. -/
  | turn {opened : Bool} {m : Manager} {change : ViewChange} {rest : Unit → Act α} :
      (∀ n, Restrained false n (rest ())) →
      Restrained opened m (.await (.changeTurn change) fun _ => (useTurn change).bind rest)
  | await {opened : Bool} {m : Manager} {effect : Effect} {next : effect.Answer → Act α} :
      effect.isTurn = false → (∀ answer n, Restrained false n (next answer)) →
      Restrained opened m (.await effect next)
  /-- On its way into a group it settles on what it finds, and adopts nothing afterwards. -/
  | join {opened : Bool} {m : Manager} {effect : Effect} {search : effect.Answer → Act Found}
      {rest : Except ServiceError Unit → Act α} :
      effect.isJoining = true → (∀ answer n, ∃ stage, Seeks stage n (search answer)) →
      (∀ result n, Restrained false n (rest result)) →
      Restrained opened m (.await effect fun answer => ((search answer).bind settle).bind rest)

/-- One piece of work at most adopts a view, and goes on to what it leaves. -/
inductive Piece (opened : Bool) (m n : Manager) : Prop where
  | steady (goes : Steady m n)
  | adopts (opens : opened = true) (before : Manager) (view : View) (first : Steady m before)
      (later : Steady (before.adopt view) n)

section
variable {opened : Bool} {m n : Manager}

theorem Restrained.weaken {p : Act α} {more : Bool} (restrained : Restrained opened m p)
    (wider : opened = true → more = true) : Restrained more m p := by
  induction restrained with
  | done result => exact .done result
  | read _ ih => exact .read (ih wider)
  | write steady _ ih => exact .write steady (ih wider)
  | adopt view steady rest _ =>
    rw [wider rfl]
    exact .adopt view steady rest
  | turn later _ => exact .turn later
  | await other goesOn _ => exact .await other goesOn
  | join joining seeks later _ => exact .join joining seeks later

theorem Restrained.open {p : Act α} (restrained : Restrained false m p) : Restrained opened m p :=
  restrained.weaken (by simp)

theorem restrained_bind {p : Act α} {f : α → Act β} (first : Restrained opened m p)
    (later : ∀ a n, Restrained false n (f a)) : Restrained opened m (p >>= f) := by
  change Restrained opened m (p.bind f)
  induction first with
  | done result => exact (later result _).open
  | read _ ih => exact .read ih
  | write steady _ ih => exact .write steady ih
  | adopt view steady _ ih => exact .adopt view steady ih
  | turn rest ih =>
    rename_i change next
    have parts : (Procedure.await (.changeTurn change) fun _ => (useTurn change).bind next).bind f =
        .await (.changeTurn change) fun _ => (useTurn change).bind fun a => (next a).bind f :=
      congrArg (Procedure.await _) (funext fun _ => Procedure.bind_assoc _ _ _)
    rw [parts]
    exact .turn ih
  | await other _ ih => exact .await other ih
  | @join _ _ effect search rest joining seeks _ ih =>
    have parts : (Procedure.await effect fun answer => ((search answer).bind settle).bind rest).bind f =
        .await effect fun answer => ((search answer).bind settle).bind fun a => (rest a).bind f :=
      congrArg (Procedure.await effect) (funext fun _ => Procedure.bind_assoc _ _ _)
    rw [parts]
    exact .join joining seeks ih

theorem restrained_pure (a : α) : Restrained opened m (pure a) := .done a

theorem restrained_get_bind {f : Manager → Act β} (next : Restrained opened m (f m)) :
    Restrained opened m (get >>= f) := by
  change Restrained opened m (.read fun s => f s)
  exact .read next

theorem restrained_modify_bind {f : Manager → Manager} {p : Unit → Act β} (steady : Steady m (f m))
    (next : Restrained opened (f m) (p ())) : Restrained opened m (modify f >>= p) := by
  change Restrained opened m (.read fun s => .write (f s) (p ()))
  exact .read (.write steady next)

theorem restrained_modify {f : Manager → Manager} (steady : Steady m (f m)) :
    Restrained opened m (modify f : Act Unit) := by
  change Restrained opened m (.read fun s => .write (f s) (.done ()))
  exact .read (.write steady (.done ()))

/-- A change of the state that adopts a view uses up the chance. -/
theorem restrained_adopt_bind {f : Manager → Manager} {p : Unit → Act β} (view : View)
    (steady : Steady (m.adopt view) (f m)) (next : Restrained false (f m) (p ())) :
    Restrained true m (modify f >>= p) := by
  change Restrained true m (.read fun s => .write (f s) (p ()))
  exact .read (.adopt view steady next)

theorem restrained_ite {c : Prop} [Decidable c] {p q : Act α} (yes : c → Restrained opened m p)
    (no : ¬c → Restrained opened m q) : Restrained opened m (if c then p else q) := by
  by_cases holds : c
  · rw [if_pos holds]
    exact yes holds
  · rw [if_neg holds]
    exact no holds

theorem restrained_perform (effect : Effect) (other : effect.isTurn = false) :
    Restrained opened m (Procedure.perform effect : Act effect.Answer) :=
  .await other fun answer _ => .done answer

/-- One piece adopts at most one view, and leaves work that is restrained. -/
theorem run_restrained {p : Act α} (restrained : Restrained opened m p) :
    Piece opened m (p.run m).1 ∧ ∀ effect next, (p.run m).2 = .waiting effect next →
      ∀ n, Restrained false n (.await effect next) := by
  induction restrained with
  | done result => exact ⟨.steady (.refl _), fun effect next stops => by simp [Procedure.run] at stops⟩
  | read _ ih => exact ih
  | write steady _ ih =>
    refine ⟨?_, ih.2⟩
    cases ih.1 with
    | steady goes => exact .steady (steady.trans goes)
    | adopts opens before view first later =>
      exact .adopts opens before view (steady.trans first) later
  | adopt view steady _ ih =>
    refine ⟨?_, ih.2⟩
    cases ih.1 with
    | steady goes => exact .adopts rfl _ view (.refl _) (steady.trans goes)
    | adopts opens => contradiction
  | turn later _ =>
    refine ⟨.steady (.refl _), fun effect next stops n => ?_⟩
    cases stops
    exact .turn later
  | await other goesOn _ =>
    refine ⟨.steady (.refl _), fun effect next stops n => ?_⟩
    cases stops
    exact .await other goesOn
  | join joining seeks later _ =>
    refine ⟨.steady (.refl _), fun effect next stops n => ?_⟩
    cases stops
    exact .join joining seeks later

/-- What comes after a procedure that adopts nothing leaves the view as the procedure leaves it. -/
theorem view_bind (p : Act α) {f : α → Act β} (later : ∀ a n, Restrained false n (f a)) :
    ((p.bind f).run m).1.view = (p.run m).1.view := by
  rw [Procedure.run_bind]
  rcases p.run m with ⟨n, result | ⟨effect, next⟩⟩
  · cases (run_restrained (later result n)).1 with
    | steady goes => exact goes.view
    | adopts opens => contradiction
  · rfl

end

/-! ### Sending -/

section
variable (m : Manager)

theorem restrained_encode (version : Version) (message : Message) :
    Restrained false m (encode version message) := by
  unfold encode
  split
  · exact restrained_pure _
  · exact restrained_modify_bind (count_steady m _) (restrained_pure _)

theorem statistics_steady (statistics : Statistics) :
    Steady m { m with statistics := statistics } :=
  .of_same [] rfl rfl rfl rfl rfl rfl rfl (List.append_nil _).symm rfl

theorem restrained_sent (size : Nat) (result : Except TransportFault Unit) :
    Restrained false m (sent size result) := by
  unfold sent
  split
  · exact restrained_modify_bind (statistics_steady m _) (restrained_pure _)
  · exact restrained_pure _

theorem restrained_sendDatagram (target : Member) (payload : Payload) :
    Restrained false m (sendDatagram target payload) := by
  refine restrained_get_bind (restrained_bind (restrained_encode m _ _) fun encoded n => ?_)
  cases encoded with
  | error e => exact restrained_pure _
  | ok data => exact restrained_bind (restrained_perform _ rfl) fun result n => restrained_sent n _ _

theorem restrained_sendMulticast (version : Version) (payload : Payload) :
    Restrained false m (sendMulticast version payload) := by
  refine restrained_get_bind (restrained_bind (restrained_encode m _ _) fun encoded n => ?_)
  cases encoded with
  | error e => exact restrained_pure _
  | ok data => exact restrained_bind (restrained_perform _ rfl) fun result n => restrained_sent n _ _

theorem restrained_deliverAll (deliveries : List Delivery) :
    Restrained false m (deliverAll deliveries) := by
  refine restrained_get_bind (restrained_ite (fun _ => restrained_pure _) fun _ => ?_)
  exact restrained_ite (fun _ => restrained_pure _) fun _ => restrained_perform _ rfl

theorem restrained_deliver (recipient : Recipient) (message : Message) :
    Restrained false m (deliver recipient message) := by
  refine restrained_bind (restrained_deliverAll m _) fun results n => ?_
  cases results <;> exact restrained_pure _

theorem restrained_sendDirect (target : Member) (payload : Payload) :
    Restrained false m (sendDirect target payload) := restrained_deliver m _ _

/-! ### Changing the view -/

theorem restrained_handOut (change : ViewChange) (next : View) :
    Restrained false m (handOut change next) :=
  restrained_get_bind (restrained_bind (restrained_deliverAll m _) fun _ _ => restrained_pure _)

theorem restrained_distribute (change : ViewChange) (next : Option View) :
    Restrained true m (distribute change next) := by
  cases next with
  | none => exact restrained_pure _
  | some next =>
    by_cases inside : next.contains m.self = true
    · refine restrained_adopt_bind next ?_ (restrained_handOut _ change next)
      rw [if_pos inside]
      exact .refl _
    · refine restrained_modify_bind ?_ (restrained_handOut _ change next).open
      rw [if_neg inside]
      exact .refl m

theorem restrained_useTurn (change : ViewChange) : Restrained true m (useTurn change) := by
  refine restrained_get_bind (restrained_bind (restrained_distribute m change _) fun _ n => ?_)
  exact restrained_modify (notice_steady n .turnOver rfl)

/-! ### Joining -/

theorem answers_steady (m : Manager) (expects : Bool) (answers : List JoinAnswer) :
    Steady m { m with expectsAnswer := expects, answers := answers } :=
  .of_same [] rfl rfl rfl rfl rfl rfl rfl (List.append_nil _).symm rfl

/-- A member that has its first view runs. -/
theorem running_steady {m : Manager} (joining : m.phase = .joining) :
    Steady m { m with phase := .running } where
  self := rfl
  view := rfl
  departed := rfl
  life := by rw [joining]; exact Nat.zero_le _
  expelled known := by simp at known
  detector := id
  silent := .refl m
  watching _ := ⟨rfl, rfl, [], by rw [List.append_nil], rfl⟩

theorem restrained_grouped_bind (found : Option View) (rest : Unit → Act α)
    (later : ∀ n, Restrained false n (rest ())) :
    Restrained true m (modify (grouped found) >>= rest) := by
  refine restrained_adopt_bind (found.getD (View.initial m.self)) ?_ (later _)
  unfold grouped
  dsimp only
  split
  · rename_i joining
    exact running_steady (by simpa using joining)
  · exact .refl _

theorem restrained_settle_bind {rest : Except ServiceError Unit → Act α} (found : Found)
    (later : ∀ result n, Restrained false n (rest result)) :
    Restrained true m ((settle found).bind rest) := by
  cases found with
  | error e => exact (later _ m).open
  | ok view =>
    refine .read (.write (answers_steady m false []) ?_)
    exact restrained_grouped_bind _ view (fun _ => rest (.ok ())) (later (.ok ()))

/-- A search adopts nothing before it settles on what it found. -/
theorem restrained_search {stage : Stage} {p : Act Found} (seeks : Seeks stage m p)
    {rest : Except ServiceError Unit → Act α} (later : ∀ result n, Restrained false n (rest result)) :
    Restrained true m ((p.bind settle).bind rest) := by
  induction seeks with
  | done _ => exact restrained_settle_bind _ _ later
  | read _ ih => exact .read ih
  | ask _ goesOn _ => exact .join rfl (fun results n => ⟨_, goesOn results n⟩) later
  | listen goesOn _ => exact .join rfl (fun outcome n => ⟨_, goesOn outcome n⟩) later

/-- Work that goes on after a wait adopts at most one view. -/
theorem restrained_next {effect : Effect} {next : effect.Answer → Act α}
    (waits : Restrained false m (.await effect next)) (answer : effect.Answer) :
    Restrained effect.opens m (next answer) := by
  cases waits with
  | turn later => exact restrained_bind (restrained_useTurn m _) fun _ n => later n
  | await _ goesOn => exact (goesOn answer m).open
  | join joining seeks later =>
    obtain ⟨stage, search⟩ := seeks answer m
    have opens : effect.opens = true := by rw [Effect.opens, joining, Bool.or_true]
    rw [opens]
    exact restrained_search m search later

/-- A turn that makes no view adopts none. -/
theorem restrained_needless {change : ViewChange} {next : Unit → Act α}
    (waits : Restrained false m (.await (.changeTurn change) next))
    (needless : m.proposal change = none) : Restrained false m (next ()) := by
  cases waits with
  | turn later =>
    refine restrained_bind (restrained_get_bind ?_) fun _ n => later n
    rw [needless]
    exact restrained_modify (notice_steady m .turnOver rfl)
  | await other => simp [Effect.isTurn] at other
  | join joining => simp [Effect.isJoining] at joining

theorem restrained_changeView (change : ViewChange) : Restrained false m (changeView change) := by
  have parts : changeView change =
      .await (.changeTurn change) fun _ => (useTurn change).bind .done :=
    congrArg (Procedure.await _) (funext fun _ => (Procedure.bind_done _).symm)
  rw [parts]
  exact .turn fun n => .done ()

theorem restrained_letIn (joiner : Member) : Restrained false m (letIn joiner) := by
  refine restrained_bind (restrained_changeView m _) fun _ n => restrained_get_bind ?_
  cases n.view with
  | none => exact restrained_pure _
  | some view => exact restrained_ite (fun _ => restrained_pure _) fun _ => restrained_pure _

theorem restrained_joinAnswerFor (joiner : Member) : Restrained false m (joinAnswerFor joiner) := by
  refine restrained_get_bind ?_
  cases activeView m with
  | none => exact restrained_pure _
  | some view =>
    dsimp only
    cases view.coordinator with
    | none => exact restrained_letIn m joiner
    | some coordinator =>
      exact restrained_ite (fun _ => restrained_letIn m joiner) fun _ => restrained_pure _

end

section
variable (m : Manager)

theorem restrained_enterGroup : Restrained true m enterGroup := by
  rw [Quest.enterGroup_eq]
  refine .read (restrained_ite (fun _ => ?_) fun _ => .write (answers_steady m true []) ?_)
  · exact restrained_grouped_bind m none _ fun n => restrained_pure _
  · let opens : Manager := { m with expectsAnswer := true, answers := [] }
    have seeks : Seeks .free opens (joinThroughEach (others m)) := seeks_joinThroughEach _ (by simp)
    have joins : Restrained true opens
        (((joinThroughEach (others m)).bind settle).bind Procedure.done) :=
      restrained_search opens seeks fun result n => restrained_pure result
    rwa [Procedure.bind_done] at joins

/-! ### Leaving -/

theorem closed_steady : Steady m { m with phase := .closed } :=
  .of_closed [] rfl rfl rfl rfl id (List.append_nil _).symm rfl

theorem restrained_endPulse : Restrained false m endPulse := by
  refine restrained_modify_bind ?_ (restrained_get_bind (restrained_perform _ rfl))
  exact .of_same [.actor .pulse] rfl rfl rfl rfl rfl rfl rfl rfl rfl

theorem restrained_endWatch (closed : m.phase = .closed) : Restrained false m endWatch := by
  refine restrained_modify_bind ?_ (restrained_get_bind (restrained_perform _ rfl))
  exact .of_closed [.actor .watch] closed rfl rfl rfl id rfl rfl

theorem restrained_shutdown (closed : m.phase = .closed) : Restrained false m shutdown := by
  refine restrained_modify_bind ?_ ?_
  · exact .of_closed [.deafened, .joinAnswer] closed rfl rfl rfl (fun _ => rfl)
      (List.append_assoc _ _ _) rfl
  · refine restrained_bind (restrained_endWatch _ closed) fun _ n => ?_
    refine restrained_bind (restrained_endPulse n) fun _ n => restrained_get_bind ?_
    exact restrained_ite
      (fun _ => restrained_bind (restrained_perform _ rfl) fun _ _ => restrained_perform _ rfl)
      fun _ => restrained_perform _ rfl

theorem restrained_close : Restrained false m close := by
  refine restrained_modify_bind (closed_steady m) (restrained_get_bind ?_)
  split
  · exact restrained_pure _
  · exact restrained_perform _ rfl
  · refine restrained_modify_bind ?_ ?_
    · exact .of_same [] rfl rfl rfl rfl rfl rfl rfl (List.append_nil _).symm rfl
    · refine restrained_bind (restrained_shutdown _ rfl) fun _ n => restrained_modify ?_
      exact .of_same [.closed] rfl rfl rfl rfl rfl rfl rfl rfl rfl

theorem restrained_farewell (view : View) : Restrained false m (farewell view) := by
  refine restrained_get_bind ?_
  cases view.coordinator with
  | none => exact restrained_pure _
  | some coordinator =>
    refine restrained_ite (fun _ => restrained_changeView m .handover) fun _ => ?_
    exact restrained_bind (restrained_sendDirect m _ _) fun _ n => restrained_pure _

theorem restrained_leave : Restrained false m leave := by
  have closes : ∀ n, Restrained false n (do close; return .ok () : Act (Except ServiceError Unit)) :=
    fun n => restrained_bind (restrained_close n) fun _ n => restrained_pure _
  refine restrained_get_bind ?_
  cases activeView m with
  | none => exact closes m
  | some view =>
    refine restrained_ite (fun _ => ?_) fun _ => closes m
    exact restrained_bind (restrained_farewell m view) fun _ n => closes n

theorem restrained_start : Restrained true m start := by
  refine restrained_bind (restrained_enterGroup m) fun entered n => ?_
  cases entered with
  | ok _ => exact restrained_pure _
  | error e => exact restrained_bind (restrained_close n) fun _ n => restrained_pure _

/-! ### What is received -/

theorem restrained_answered (counter : Counter) (result : Except ServiceError Unit) :
    Restrained false m (answered counter result) := by
  cases result with
  | ok _ => exact restrained_modify_bind (count_steady m counter) (restrained_pure _)
  | error e => exact restrained_pure _

theorem restrained_react {f : Manager → Manager} (steady : Steady m (f m)) :
    Restrained false m (react f) := restrained_modify_bind steady (restrained_pure _)

theorem restrained_onDatagramPayload (sender : Member) (payload : Payload) :
    Restrained false m (onDatagramPayload sender payload) := by
  unfold onDatagramPayload
  split
  · refine restrained_modify_bind (count_steady m _) (restrained_get_bind ?_)
    refine restrained_ite (fun _ => ?_) fun _ => restrained_pure _
    exact restrained_bind (restrained_sendDatagram _ _ _) fun result n => restrained_answered n _ _
  · exact restrained_react m ((count_steady m _).trans (feed_steady _ rfl))
  · exact restrained_react m ((count_steady m _).trans (feed_steady _ rfl))
  · exact restrained_pure _

theorem restrained_onDatagram (source : Net.Endpoint) (data : List UInt8) :
    Restrained false m (onDatagram source data) := by
  refine restrained_modify_bind (count_steady m _) ?_
  cases Codec.decode .current data with
  | error fault => exact restrained_pure _
  | ok message =>
    refine restrained_modify_bind (statistics_steady _ _) ?_
    cases datagramSender source message with
    | error refusal => exact restrained_pure _
    | ok sender =>
      refine restrained_get_bind (restrained_ite (fun _ => restrained_pure _) fun _ => ?_)
      exact restrained_onDatagramPayload _ sender _

theorem restrained_onFinalCheck (sender target : Member) (request : UInt64) :
    Restrained false m (onFinalCheck sender target request) := by
  refine restrained_modify_bind (count_steady m _) (restrained_get_bind ?_)
  refine restrained_ite (fun _ => ?_) fun _ => restrained_pure _
  exact restrained_bind (restrained_sendDirect _ _ _) fun result n => restrained_answered n _ _

theorem restrained_onJoinRequest (joiner : Member) : Restrained false m (onJoinRequest joiner) := by
  refine restrained_bind (restrained_joinAnswerFor m joiner) fun answer n => ?_
  refine restrained_bind (restrained_sendDirect n joiner _) fun result n => ?_
  cases result <;> exact restrained_pure _

theorem takeJoinAnswer_steady (answer : JoinAnswer) : Steady m (m.takeJoinAnswer answer) := by
  unfold takeJoinAnswer
  split
  · exact (answers_steady m _ _).trans (notice_steady _ .joinAnswer rfl)
  · exact .refl m

/-- Only a view that is handed over can be adopted right away. -/
theorem restrained_onDirectPayload (sender : Member) (payload : Payload) :
    Restrained payload.handed?.isSome m (onDirectPayload sender payload) := by
  cases payload with
  | finalCheckRequest request target => exact restrained_onFinalCheck m sender target request
  | finalCheckResponse request =>
    exact restrained_react m ((count_steady m _).trans (feed_steady _ rfl))
  | joinRequest joiner => exact restrained_onJoinRequest m sender
  | joinResponse answer => exact restrained_react m (takeJoinAnswer_steady m answer)
  | leaveRequest leaver reason =>
    exact restrained_bind (restrained_changeView m _) fun _ n => restrained_pure _
  | removeMember member reason => exact restrained_react m (feed_steady m rfl)
  | installView view =>
    by_cases refused : (!sender.same view.creator || m.phase == .closed) = true
    · refine restrained_modify_bind ?_ (restrained_pure _)
      rw [takeView, if_pos refused]
      exact .refl m
    · refine restrained_adopt_bind view ?_ (restrained_pure _)
      rw [takeView, if_neg refused]
      exact .refl _
  | _ => exact restrained_pure _

theorem restrained_onDirect (message : Message) :
    Restrained message.payload.handed?.isSome m (onDirect message) := by
  unfold onDirect
  cases message.sender with
  | some sender => exact restrained_onDirectPayload m sender message.payload
  | none => exact restrained_pure _

/-! ### The failure detector -/

theorem restrained_counted (counter : Counter) (isOk : Bool) :
    Restrained false m (if isOk then modify (·.count counter) else pure () : Act Unit) :=
  restrained_ite (fun _ => restrained_modify (count_steady m counter)) fun _ => restrained_pure _

theorem restrained_tellEach (payload : Payload) (members : List Member) :
    Restrained false m (tellEach payload members) := by
  induction members generalizing m with
  | nil => exact restrained_pure _
  | cons x rest ih =>
    refine restrained_bind (restrained_sendDatagram m x payload) fun result n => ?_
    exact restrained_ite (fun _ => restrained_modify_bind (count_steady n _) (ih _)) fun _ => ih n

theorem restrained_announce (view : View) (suspect : Member) (reason : String) :
    Restrained false m (announce view suspect reason) := by
  refine restrained_get_bind (restrained_ite (fun _ => ?_) fun _ => restrained_tellEach m _ _)
  exact restrained_bind (restrained_sendMulticast m _ _) fun _ n => restrained_counted n _ _

theorem restrained_finalCheck (target : Member) (request : UInt64) :
    Restrained false m (finalCheck target request) := by
  refine restrained_bind (restrained_sendDirect m target _) fun result n => restrained_modify ?_
  split
  · exact count_steady n _
  · exact feed_steady n rfl

theorem restrained_run (errand : Errand) : Restrained false m (run errand) := by
  cases errand with
  | heartbeat target request =>
    exact restrained_bind (restrained_sendDatagram m _ _) fun _ n => restrained_counted n _ _
  | suspicion view suspect reason => exact restrained_announce m view suspect reason
  | finalCheck target request => exact restrained_finalCheck m target request
  | removal coordinator member reason =>
    exact restrained_bind (restrained_sendDirect m coordinator _) fun _ n => restrained_pure _

/-- A member tells of nothing but partitions. -/
def Alarms (m n : Manager) : Prop :=
  ∃ statistics more, n = { m with statistics := statistics, notices := m.notices ++ more } ∧
    ∀ e ∈ tidings more, e.isAlarm = true

theorem Alarms.trans {m n k : Manager} (first : Alarms m n) (second : Alarms n k) : Alarms m k := by
  obtain ⟨_, before, rfl, early⟩ := first
  obtain ⟨statistics, after, rfl, late⟩ := second
  refine ⟨statistics, before ++ after, by simp only [List.append_assoc], fun e member => ?_⟩
  rw [tidings_append] at member
  exact (List.mem_append.mp member).elim (early e) (late e)

theorem alarms_of_notice (notice : Notice) (statistics : Statistics)
    (harmless : ∀ e, notice.event? = some e → e.isAlarm = true) :
    Alarms m { m with statistics := statistics, notices := m.notices ++ [notice] } := by
  refine ⟨statistics, [notice], rfl, fun e member => ?_⟩
  simp only [tidings, List.filterMap_cons, List.filterMap_nil] at member
  split at member
  · simp at member
  · rename_i found
    exact harmless e (List.mem_singleton.mp member ▸ found)

/-- Every action but a view is over at once. -/
theorem execute_eq {action : Detector.Action} (tame : ∀ view, action ≠ .installView view) :
    ∃ f, execute action = modify f ∧ ∀ m, Alarms m (f m) := by
  cases action with
  | sendHeartbeat | sendFinalCheck | requestRemoval =>
    exact ⟨_, rfl, fun m => alarms_of_notice m _ m.statistics (by simp [Notice.event?])⟩
  | broadcastSuspect suspect reason =>
    refine ⟨_, rfl, fun m => ?_⟩
    split
    · exact alarms_of_notice m _ m.statistics (by simp [Notice.event?])
    · exact ⟨m.statistics, [], by simp, by simp [tidings]⟩
  | installView view => exact absurd rfl (tame view)
  | partitionDetected unreachable lost total =>
    exact ⟨_, rfl, fun m => alarms_of_notice m _ _ (by simp [Notice.event?, View.Event.isAlarm])⟩

theorem executeEach_run {actions : List Detector.Action}
    (tame : ∀ view, .installView view ∉ actions) :
    ∃ n, (executeEach actions).run m = (n, .done ()) ∧ Alarms m n := by
  induction actions generalizing m with
  | nil => exact ⟨m, rfl, m.statistics, [], by simp, by simp [tidings]⟩
  | cons action rest ih =>
    have other : ∀ view, action ≠ .installView view := fun view is =>
      tame view (is ▸ List.mem_cons_self)
    obtain ⟨f, same, alarms⟩ := execute_eq other
    obtain ⟨n, runs, later⟩ := ih (f m) fun view member => tame view (List.mem_cons_of_mem _ member)
    refine ⟨n, ?_, (alarms m).trans later⟩
    unfold executeEach
    rw [same]
    exact runs

/-- What the handling of an event does: nothing without a detector; else the detector goes on, and
either there are alarms at most, or a removal waits for its turn. -/
theorem onDetectorEvent_cases (event : Detector.Event) :
    m.detector = none ∧ (onDetectorEvent event).run m = (m, .done ()) ∨
      ∃ d, m.detector = some d ∧
        let handled := (m.clocked d).handle event
        let n : Manager := { m with detector := some handled.1 }
        (∃ k, (onDetectorEvent event).run m = (k, .done ()) ∧ Alarms n k ∧
            ∀ view, .installView view ∉ handled.2) ∨
          ∃ view, handled.2 = [.installView view] ∧ (onDetectorEvent event).run m =
            (n, .waiting (.changeTurn (.removal view.crashed)) fun _ =>
              (useTurn (.removal view.crashed)).bind .done) := by
  cases watching : m.detector with
  | none =>
    refine Or.inl ⟨rfl, ?_⟩
    change (Procedure.read fun s : Manager => _).run m = _
    simp only [Procedure.run, Procedure.bind, watching]
    rfl
  | some d =>
    refine Or.inr ⟨d, rfl, ?_⟩
    intro handled n
    have goes : (onDetectorEvent event).run m = (executeEach handled.2).run n := by
      change (Procedure.read fun s : Manager => _).run m = _
      simp only [Procedure.run, Procedure.bind, watching]
      rfl
    rw [goes]
    by_cases installs : ∃ view, .installView view ∈ ((m.clocked d).move (.handle event)).2
    · obtain ⟨view, wanted⟩ := installs
      have alone : handled.2 = [.installView view] := (Detector.move_installs wanted).1
      rw [alone]
      exact Or.inr ⟨view, rfl, rfl⟩
    · have tame : ∀ view, .installView view ∉ handled.2 := fun view member => installs ⟨view, member⟩
      obtain ⟨k, runs, alarms⟩ := executeEach_run n tame
      exact Or.inl ⟨k, runs, alarms, tame⟩

/-! ### The application -/

theorem restrained_send (recipient : Member) (message : Message) :
    Restrained false m (send recipient message) := by
  unfold send
  refine restrained_get_bind ?_
  cases m.refusal? message with
  | some e => exact restrained_pure _
  | none =>
    refine restrained_ite (fun _ => restrained_perform _ rfl) fun _ => ?_
    split
    · exact restrained_deliver m _ _
    · exact restrained_ite (fun _ => restrained_pure _) fun _ => restrained_deliver m _ _

theorem restrained_broadcast (message : Message) : Restrained false m (broadcast message) := by
  unfold broadcast
  refine restrained_get_bind ?_
  cases m.refusal? message with
  | some e => exact restrained_pure _
  | none =>
    dsimp only
    cases m.view with
    | none => exact restrained_pure _
    | some view =>
      refine restrained_ite (fun _ => restrained_pure _) fun _ => ?_
      exact restrained_bind (restrained_deliverAll m _) fun _ n => restrained_pure _

end

end Manager

end Cohort
