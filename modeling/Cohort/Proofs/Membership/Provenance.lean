import Cohort.Membership.Application
import Cohort.Membership.Leaving
import Cohort.Membership.Reception
import Cohort.Membership.Watch
import Cohort.Proofs.Membership.Procedures

/-! Where a member's views come from. A member founds a group with a view of itself, installs views
that it is sent, and in its turn makes the view after the one it has. Whatever it installs or passes
on is one of these, so a set of views that has them all is never left. -/

namespace Cohort

/-- The view that a payload carries. -/
def Payload.view? : Payload → Option View
  | .installView view | .joinResponse (.accepted view) => some view
  | _ => none

/-- Whether an effect is to make deliveries. -/
def Effect.isDelivery : Effect → Bool
  | .deliver _ => true
  | _ => false

namespace Manager

variable {α β : Type}

/-- The installed view is a known one. -/
def Holds (known : View → Prop) (m : Manager) : Prop := ∀ v, m.view = some v → known v

/-- An effect sends known views only. -/
def Sends (known : View → Prop) : Effect → Prop
  | .deliver deliveries => ∀ d ∈ deliveries, ∀ v, d.message.payload.view? = some v → known v
  | _ => True

/-- What comes of an effect is known: the view of a joiner that is accepted, and the one that is made
in a turn. -/
def Brings (known : View → Prop) (m : Manager) : (effect : Effect) → effect.Answer → Prop
  | .joinAnswer _, .answered (.accepted view) => known view
  | .changeTurn change, _ => ∀ v, m.proposal change = some v → known v
  | _, _ => True

/-- What is left of a piece installs and sends known views only, and has a result as told; so do all
the pieces after it, as more views become known. -/
inductive Faithful (result : (View → Prop) → α → Prop) : (View → Prop) → Manager → Act α → Prop where
  | done {known : View → Prop} {m : Manager} {a : α} :
      Holds known m → result known a → Faithful result known m (.done a)
  | read {known : View → Prop} {m : Manager} {next : Manager → Act α} :
      Faithful result known m (next m) → Faithful result known m (.read next)
  | write {known : View → Prop} {m n : Manager} {next : Act α} :
      Holds known n → Faithful result known n next → Faithful result known m (.write n next)
  | await {known : View → Prop} {m : Manager} {effect : Effect} {next : effect.Answer → Act α} :
      Sends known effect →
      (∀ (more : View → Prop) n answer, (∀ v, known v → more v) → Holds more n →
        Brings more n effect answer → Faithful result more n (next answer)) →
      Faithful result known m (.await effect next)

/-- A result in which there are no views. -/
def Plain : (View → Prop) → α → Prop := fun _ _ => True

section
variable {known : View → Prop} {m : Manager} {result : (View → Prop) → α → Prop}
  {later : (View → Prop) → β → Prop}

theorem holds_of_view {n : Manager} (same : n.view = m.view) (holds : Holds known m) :
    Holds known n := fun v found => holds v (same ▸ found)

theorem faithful_bind {p : Act α} {f : α → Act β} (first : Faithful result known m p)
    (goesOn : ∀ (more : View → Prop) n a, (∀ v, known v → more v) → Holds more n → result more a →
      Faithful later more n (f a)) : Faithful later known m (p >>= f) := by
  change Faithful later known m (p.bind f)
  induction first with
  | done holds fine => exact goesOn _ _ _ (fun _ here => here) holds fine
  | read _ ih => exact .read (ih goesOn)
  | write holds _ ih => exact .write holds (ih goesOn)
  | await sends _ ih =>
    refine .await sends fun more n answer grows holds brings => ?_
    refine ih more n answer grows holds brings fun most k a further => ?_
    exact goesOn most k a fun v here => further v (grows v here)

theorem faithful_pure (holds : Holds known m) {a : α} (fine : result known a) :
    Faithful result known m (pure a) := .done holds fine

theorem faithful_get_bind {f : Manager → Act β} (next : Faithful later known m (f m)) :
    Faithful later known m (get >>= f) := by
  change Faithful later known m (.read fun s => f s)
  exact .read next

theorem faithful_modify_bind {f : Manager → Manager} {p : Unit → Act β} (holds : Holds known (f m))
    (next : Faithful later known (f m) (p ())) : Faithful later known m (modify f >>= p) := by
  change Faithful later known m (.read fun s => .write (f s) (p ()))
  exact .read (.write holds next)

theorem faithful_modify {f : Manager → Manager} (holds : Holds known (f m)) :
    Faithful Plain known m (modify f : Act Unit) := by
  change Faithful Plain known m (.read fun s => .write (f s) (.done ()))
  exact .read (.write holds (.done holds trivial))

theorem faithful_set_bind {n : Manager} {p : Unit → Act β} (holds : Holds known n)
    (next : Faithful later known n (p ())) : Faithful later known m (set n >>= p) := by
  change Faithful later known m (.write n (p ()))
  exact .write holds next

theorem faithful_ite {c : Prop} [Decidable c] {p q : Act α} (yes : c → Faithful result known m p)
    (no : ¬c → Faithful result known m q) : Faithful result known m (if c then p else q) := by
  by_cases holds : c
  · rw [if_pos holds]
    exact yes holds
  · rw [if_neg holds]
    exact no holds

theorem faithful_perform (effect : Effect) (other : effect.isDelivery = false) :
    Faithful Plain known m (Procedure.perform effect : Act effect.Answer) := by
  refine .await ?_ fun _ _ _ _ holds _ => .done holds trivial
  cases effect with
  | deliver deliveries => contradiction
  | _ => trivial

end

/-! ### The views of the steps -/

theorem adopt_views (m : Manager) (view : View) :
    (m.adopt view).view = m.view ∨ (m.adopt view).view = some view := by
  have expels : (m.expel view).view = m.view := by
    unfold expel
    split <;> rfl
  unfold adopt
  split
  · split
    · exact Or.inl rfl
    · split
      · exact Or.inr (installed_fields _ _ _).1
      · exact Or.inl expels
  · split
    · exact Or.inr (installed_fields _ _ _).1
    · exact Or.inl rfl

theorem pass_view (m : Manager) : m.pass.view = m.view := by
  unfold pass
  split
  · rfl
  · exact (feeds_alike _ _).view

section
variable {known : View → Prop} {m : Manager}

theorem holds_adopt (holds : Holds known m) {view : View} (here : known view) :
    Holds known (m.adopt view) := by
  intro v found
  rcases adopt_views m view with same | new
  · exact holds v (same ▸ found)
  · exact Option.some.inj (new.symm.trans found) ▸ here

theorem Alike.holds {n : Manager} (alike : Alike m n) (holds : Holds known m) : Holds known n :=
  holds_of_view alike.view holds

/-! ### Sending -/

variable (holds : Holds known m)
include holds

theorem faithful_encode (version : Version) (message : Message) :
    Faithful Plain known m (encode version message) := by
  unfold encode
  split
  · exact faithful_pure holds trivial
  · exact faithful_modify_bind ((count_alike m _).holds holds)
      (faithful_pure ((count_alike m _).holds holds) trivial)

theorem faithful_sent (size : Nat) (result : Except TransportFault Unit) :
    Faithful Plain known m (sent size result) := by
  unfold sent
  split
  · have counted := holds_of_view (n := { m with statistics := m.statistics.messageSent size }) rfl holds
    exact faithful_modify_bind counted (faithful_pure counted trivial)
  · exact faithful_pure holds trivial

theorem faithful_sendDatagram (target : Member) (payload : Payload) :
    Faithful Plain known m (sendDatagram target payload) := by
  unfold sendDatagram
  refine faithful_get_bind (faithful_bind (faithful_encode holds _ _) fun more n encoded _ holds _ => ?_)
  cases encoded with
  | error e => exact faithful_pure holds trivial
  | ok data =>
    exact faithful_bind (faithful_perform _ rfl) fun more n result _ holds _ =>
      faithful_sent holds _ _

theorem faithful_sendMulticast (version : Version) (payload : Payload) :
    Faithful Plain known m (sendMulticast version payload) := by
  unfold sendMulticast
  refine faithful_get_bind (faithful_bind (faithful_encode holds _ _) fun more n encoded _ holds _ => ?_)
  cases encoded with
  | error e => exact faithful_pure holds trivial
  | ok data =>
    exact faithful_bind (faithful_perform _ rfl) fun more n result _ holds _ =>
      faithful_sent holds _ _

theorem faithful_deliverAll {deliveries : List Delivery} (sends : Sends known (.deliver deliveries)) :
    Faithful Plain known m (deliverAll deliveries) := by
  unfold deliverAll
  refine faithful_get_bind (faithful_ite (fun _ => faithful_pure holds trivial) fun _ => ?_)
  refine faithful_ite (fun _ => faithful_pure holds trivial) fun _ => ?_
  exact .await sends fun _ _ _ _ holds _ => .done holds trivial

theorem faithful_deliver (recipient : Recipient) {message : Message}
    (sends : ∀ v, message.payload.view? = some v → known v) :
    Faithful Plain known m (deliver recipient message) := by
  unfold deliver
  refine faithful_bind (faithful_deliverAll holds fun d member => ?_) fun more n results _ holds _ => ?_
  · rw [List.mem_singleton.mp member]
    exact sends
  · split <;> exact faithful_pure holds trivial

theorem faithful_sendDirect (target : Member) {payload : Payload}
    (sends : ∀ v, payload.view? = some v → known v) :
    Faithful Plain known m (sendDirect target payload) :=
  faithful_deliver holds _ sends

/-! ### Changing the view -/

theorem faithful_handOut (change : ViewChange) {next : View} (here : known next) :
    Faithful Plain known m (handOut change next) := by
  unfold handOut
  refine faithful_get_bind (faithful_bind (faithful_deliverAll holds ?_) fun more n _ _ holds _ =>
    faithful_pure holds trivial)
  intro d member v carries
  obtain ⟨r, -, rfl⟩ := List.mem_map.mp member
  cases carries
  exact here

theorem faithful_distribute (change : ViewChange) {next : Option View}
    (here : ∀ v, next = some v → known v) : Faithful Plain known m (distribute change next) := by
  cases next with
  | none => exact faithful_pure holds trivial
  | some next =>
    have adopts : Holds known (if next.contains m.self then m.adopt next else m) := by
      split
      · exact holds_adopt holds (here next rfl)
      · exact holds
    exact faithful_modify_bind adopts (faithful_handOut adopts change (here next rfl))

theorem faithful_useTurn {change : ViewChange} (makes : ∀ v, m.proposal change = some v → known v) :
    Faithful Plain known m (useTurn change) := by
  refine faithful_get_bind (faithful_bind (faithful_distribute holds change makes)
    fun more n _ _ holds _ => ?_)
  exact faithful_modify ((notice_alike n _).holds holds)

omit holds in
theorem faithful_changeView (change : ViewChange) : Faithful Plain known m (changeView change) := by
  change Faithful Plain known m (.await (.changeTurn change) fun _ => useTurn change)
  exact .await trivial fun more n _ _ holds makes => faithful_useTurn holds makes

/-- An answer to a request to join that accepts it does so with a known view. -/
def AcceptsKnown (known : View → Prop) (answer : JoinAnswer) : Prop :=
  ∀ v, answer = .accepted v → known v

omit holds in
theorem faithful_letIn (joiner : Member) : Faithful AcceptsKnown known m (letIn joiner) := by
  refine faithful_bind (faithful_changeView _) fun more n _ _ holds _ => faithful_get_bind ?_
  cases held : n.view with
  | none => exact faithful_pure holds fun v same => by cases same
  | some view =>
    refine faithful_ite (fun _ => faithful_pure holds fun v same => ?_) fun _ =>
      faithful_pure holds fun v same => by cases same
    cases same
    exact holds _ held

theorem faithful_joinAnswerFor (joiner : Member) :
    Faithful AcceptsKnown known m (joinAnswerFor joiner) := by
  refine faithful_get_bind ?_
  cases activeView m with
  | none => exact faithful_pure holds fun v same => by cases same
  | some view =>
    dsimp only
    cases view.coordinator with
    | none => exact faithful_letIn joiner
    | some coordinator =>
      exact faithful_ite (fun _ => faithful_letIn joiner) fun _ =>
        faithful_pure holds fun v same => by cases same

/-! ### Joining -/

/-- A group that lets the member in does so with a known view. -/
def GrantsKnown (known : View → Prop) (joined : Except ServiceError (Option View)) : Prop :=
  ∀ v, joined = .ok (some v) → known v

omit holds in
theorem faithful_awaitAnswer (patience : Span) :
    Faithful (fun known outcome => ∀ v, outcome = .answered (.accepted v) → known v) known m
      (Procedure.perform (.joinAnswer patience) : Act JoinOutcome) := by
  refine .await trivial fun more n outcome _ holds brings => .done holds fun v same => ?_
  cases same
  exact brings

theorem faithful_joinThrough_of (redirects : Nat) (target : Net.Endpoint)
    (follow : ∀ more n rest next, Holds more n → redirects = rest + 1 →
      Faithful GrantsKnown more n (joinThrough rest next)) :
    Faithful GrantsKnown known m (joinThrough redirects target) := by
  unfold joinThrough
  refine faithful_get_bind (faithful_bind (faithful_deliver holds _ fun v carries => by cases carries)
    fun more n delivered _ holds _ => ?_)
  cases delivered with
  | error e => exact faithful_pure holds fun v same => by cases same
  | ok _ =>
    refine faithful_bind (faithful_awaitAnswer _) fun more n outcome _ holds accepts => ?_
    cases outcome with
    | closed | silence => exact faithful_pure holds fun v same => by cases same
    | answered answer =>
      cases answer with
      | accepted view =>
        refine faithful_pure holds fun v same => ?_
        cases same
        exact accepts view rfl
      | rejected reason => exact faithful_pure holds fun v same => by cases same
      | redirect coordinator =>
        dsimp only
        cases coordinator.directAddress? with
        | none => exact faithful_pure holds fun v same => by cases same
        | some next =>
          cases redirects with
          | zero => exact faithful_pure holds fun v same => by cases same
          | succ rest => exact follow more n rest next holds rfl

theorem faithful_joinThrough (redirects : Nat) (target : Net.Endpoint) :
    Faithful GrantsKnown known m (joinThrough redirects target) := by
  induction redirects generalizing target known m with
  | zero => exact faithful_joinThrough_of holds 0 target fun _ _ _ _ _ none => by simp at none
  | succ redirects ih =>
    refine faithful_joinThrough_of holds (redirects + 1) target fun more n rest next holds same => ?_
    rw [← Nat.succ.inj same]
    exact ih holds next

theorem faithful_joinThroughEach (locators : List Net.Endpoint) :
    Faithful GrantsKnown known m (joinThroughEach locators) := by
  induction locators generalizing known m with
  | nil => exact faithful_pure holds fun v same => by cases same
  | cons locator rest ih =>
    unfold joinThroughEach
    refine faithful_bind (faithful_joinThrough holds _ locator) fun more n joined _ holds grants => ?_
    split
    · exact faithful_pure holds grants
    · exact faithful_pure holds fun v same => by cases same
    · exact ih holds
    · exact ih holds

theorem faithful_joinThroughLocators : Faithful GrantsKnown known m joinThroughLocators := by
  unfold joinThroughLocators
  refine faithful_get_bind (faithful_ite (fun _ => faithful_pure holds fun v same => by cases same)
    fun _ => ?_)
  have expects := holds_of_view (n := { m with expectsAnswer := true, answers := [] }) rfl holds
  refine faithful_set_bind expects (faithful_bind (faithful_joinThroughEach expects _)
    fun more n joined _ holds grants => ?_)
  cases joined with
  | error e => exact faithful_pure holds fun v same => by cases same
  | ok view =>
    have closed := holds_of_view (n := { n with expectsAnswer := false, answers := [] }) rfl holds
    exact faithful_modify_bind closed (faithful_pure closed grants)

theorem faithful_enterGroup (founds : ∀ founder, known (View.initial founder)) :
    Faithful Plain known m enterGroup := by
  refine faithful_bind (faithful_joinThroughLocators holds) fun more n joined grows holds grants => ?_
  cases joined with
  | error e => exact faithful_pure holds trivial
  | ok view =>
    have here : more (view.getD (View.initial n.self)) := by
      cases view with
      | none => exact grows _ (founds n.self)
      | some view => exact grants view rfl
    have adopts := holds_adopt holds here
    have enters : Holds more
        (if (n.adopt (view.getD (View.initial n.self))).phase == .joining
          then { n.adopt (view.getD (View.initial n.self)) with phase := .running }
          else n.adopt (view.getD (View.initial n.self))) := by
      split
      · exact holds_of_view rfl adopts
      · exact adopts
    exact faithful_modify_bind enters (faithful_pure enters trivial)

/-! ### Leaving -/

theorem faithful_endWatch : Faithful Plain known m endWatch :=
  faithful_modify_bind (holds_of_view rfl holds)
    (faithful_get_bind (faithful_perform (.actorEnd _ _) rfl))

theorem faithful_endPulse : Faithful Plain known m endPulse :=
  faithful_modify_bind (holds_of_view rfl holds)
    (faithful_get_bind (faithful_perform (.actorEnd _ _) rfl))

theorem faithful_shutdown : Faithful Plain known m shutdown := by
  unfold shutdown
  have stops := holds_of_view (n := (({ m.stopDetector with
    listening := false, expectsAnswer := false } : Manager).notice .deafened).notice .joinAnswer) rfl holds
  refine faithful_modify_bind stops (faithful_bind (faithful_endWatch stops) fun more n _ _ holds _ => ?_)
  refine faithful_bind (faithful_endPulse holds) fun more n _ _ holds _ => faithful_get_bind ?_
  exact faithful_ite (fun _ => faithful_bind (faithful_perform .closeChannel rfl) fun _ _ _ _ _ _ =>
    faithful_perform .closeTransport rfl) fun _ => faithful_perform .closeTransport rfl

theorem faithful_close : Faithful Plain known m close := by
  have closes := holds_of_view (n := { m with phase := .closed }) rfl holds
  refine faithful_modify_bind closes (faithful_get_bind ?_)
  split
  · exact faithful_pure closes trivial
  · exact faithful_perform .closed rfl
  · have begins := holds_of_view (n := { m with phase := .closed, closing := .underway }) rfl holds
    refine faithful_modify_bind begins (faithful_bind (faithful_shutdown begins)
      fun more n _ _ holds _ => ?_)
    exact faithful_modify (holds_of_view rfl holds)

theorem faithful_farewell (view : View) : Faithful Plain known m (farewell view) := by
  refine faithful_get_bind ?_
  cases view.coordinator with
  | none => exact faithful_pure holds trivial
  | some coordinator =>
    refine faithful_ite (fun _ => faithful_changeView _) fun _ => ?_
    refine faithful_bind (faithful_sendDirect holds _ fun v carries => by cases carries)
      fun more n _ _ holds _ => faithful_pure holds trivial

theorem faithful_leave : Faithful Plain known m leave := by
  have closes : ∀ {more n}, Holds more n →
      Faithful Plain more n (do close; return .ok () : Act (Except ServiceError Unit)) := fun holds =>
    faithful_bind (faithful_close holds) fun more n _ _ holds _ => faithful_pure holds trivial
  refine faithful_get_bind ?_
  cases activeView m with
  | none => exact closes holds
  | some view =>
    exact faithful_ite (fun _ => faithful_bind (faithful_farewell holds view)
      fun more n _ _ holds _ => closes holds) fun _ => closes holds

theorem faithful_start (founds : ∀ founder, known (View.initial founder)) :
    Faithful Plain known m start := by
  refine faithful_bind (faithful_enterGroup holds founds) fun more n entered _ holds _ => ?_
  cases entered with
  | ok _ => exact faithful_pure holds trivial
  | error e =>
    exact faithful_bind (faithful_close holds) fun more n _ _ holds _ => faithful_pure holds trivial

/-! ### What is received -/

theorem faithful_answered (counter : Counter) (result : Except ServiceError Unit) :
    Faithful Plain known m (answered counter result) := by
  cases result with
  | ok _ =>
    have counted := (count_alike m counter).holds holds
    exact faithful_modify_bind counted (faithful_pure counted trivial)
  | error e => exact faithful_pure holds trivial

omit holds in
theorem faithful_react {f : Manager → Manager} (holds : Holds known (f m)) :
    Faithful Plain known m (react f) :=
  faithful_modify_bind holds (faithful_pure holds trivial)

theorem faithful_onDatagramPayload (sender : Member) (payload : Payload) :
    Faithful Plain known m (onDatagramPayload sender payload) := by
  unfold onDatagramPayload
  split
  · have counted := (count_alike m .heartbeatRequestsReceived).holds holds
    refine faithful_modify_bind counted (faithful_get_bind (faithful_ite (fun _ => ?_) fun _ =>
      faithful_pure counted trivial))
    exact faithful_bind (faithful_sendDatagram counted _ _) fun more n result _ holds _ =>
      faithful_answered holds _ _
  · exact faithful_react (((count_alike m _).trans (feed_alike _ _)).holds holds)
  · exact faithful_react (((count_alike m _).trans (feed_alike _ _)).holds holds)
  · exact faithful_pure holds trivial

theorem faithful_onDatagram (source : Net.Endpoint) (data : List UInt8) :
    Faithful Plain known m (onDatagram source data) := by
  have counted := (count_alike m .deserializations).holds holds
  refine faithful_modify_bind counted ?_
  cases Codec.decode .current data with
  | error fault => exact faithful_pure counted trivial
  | ok message =>
    have received := holds_of_view (n := { m.count .deserializations with
      statistics := (m.count .deserializations).statistics.messageReceived data.length }) rfl counted
    refine faithful_modify_bind received ?_
    cases datagramSender source message with
    | error refusal => exact faithful_pure received trivial
    | ok sender =>
      refine faithful_get_bind (faithful_ite (fun _ => faithful_pure received trivial) fun _ => ?_)
      exact faithful_onDatagramPayload received sender _

theorem faithful_onFinalCheck (sender target : Member) (request : UInt64) :
    Faithful Plain known m (onFinalCheck sender target request) := by
  have counted := (count_alike m .finalCheckRequestsReceived).holds holds
  refine faithful_modify_bind counted (faithful_get_bind (faithful_ite (fun _ => ?_) fun _ =>
    faithful_pure counted trivial))
  exact faithful_bind (faithful_sendDirect counted _ fun v carries => by cases carries)
    fun more n result _ holds _ => faithful_answered holds _ _

theorem faithful_onJoinRequest (joiner : Member) :
    Faithful Plain known m (onJoinRequest joiner) := by
  refine faithful_bind (faithful_joinAnswerFor holds joiner) fun more n answer _ holds accepts => ?_
  refine faithful_bind (faithful_sendDirect holds joiner fun v carries => ?_)
    fun more n result _ holds _ => ?_
  · cases answer with
    | accepted view =>
      cases carries
      exact accepts _ rfl
    | redirect | rejected => cases carries
  · cases result <;> exact faithful_pure holds trivial

theorem faithful_onDirectPayload (sender : Member) {payload : Payload}
    (carries : ∀ v, payload.view? = some v → known v) :
    Faithful Plain known m (onDirectPayload sender payload) := by
  unfold onDirectPayload
  split
  · exact faithful_onFinalCheck holds sender _ _
  · exact faithful_react (((count_alike m _).trans (feed_alike _ _)).holds holds)
  · exact faithful_onJoinRequest holds sender
  · exact faithful_react ((takeJoinAnswer_alike m _).holds holds)
  · exact faithful_bind (faithful_changeView _) fun more n _ _ holds _ => faithful_pure holds trivial
  · exact faithful_react ((feed_alike m _).holds holds)
  · refine faithful_react ?_
    unfold takeView
    split
    · exact holds
    · exact holds_adopt holds (carries _ rfl)
  · exact faithful_pure holds trivial

theorem faithful_onDirect {message : Message}
    (carries : ∀ v, message.payload.view? = some v → known v) :
    Faithful Plain known m (onDirect message) := by
  unfold onDirect
  split
  · exact faithful_onDirectPayload holds _ carries
  · exact faithful_pure holds trivial

/-! ### The failure detector -/

theorem faithful_counted (counter : Counter) (isOk : Bool) :
    Faithful Plain known m (if isOk then modify (·.count counter) else pure () : Act Unit) :=
  faithful_ite (fun _ => faithful_modify ((count_alike m counter).holds holds)) fun _ =>
    faithful_pure holds trivial

theorem faithful_heartbeat (target : Member) (request : UInt64) :
    Faithful Plain known m (heartbeat target request) :=
  faithful_bind (faithful_sendDatagram holds _ _) fun _ _ _ _ holds _ => faithful_counted holds _ _

theorem faithful_tellEach (payload : Payload) (members : List Member) :
    Faithful Plain known m (tellEach payload members) := by
  induction members generalizing known m with
  | nil => exact faithful_pure holds trivial
  | cons x rest ih =>
    unfold tellEach
    refine faithful_bind (faithful_sendDatagram holds x payload) fun more n result _ holds _ => ?_
    have counted := (count_alike n .suspectsSent).holds holds
    exact faithful_ite (fun _ => faithful_modify_bind counted (ih counted)) fun _ => ih holds

theorem faithful_announce (view : View) (suspect : Member) (reason : String) :
    Faithful Plain known m (announce view suspect reason) := by
  unfold announce
  refine faithful_get_bind (faithful_ite (fun _ => ?_) fun _ => faithful_tellEach holds _ _)
  exact faithful_bind (faithful_sendMulticast holds _ _) fun more n _ _ holds _ =>
    faithful_counted holds _ _

theorem faithful_finalCheck (target : Member) (request : UInt64) :
    Faithful Plain known m (finalCheck target request) := by
  refine faithful_bind (faithful_sendDirect holds target fun v carries => by cases carries)
    fun more n result _ holds _ => faithful_modify ?_
  split
  · exact (count_alike n _).holds holds
  · exact (feed_alike n _).holds holds

theorem faithful_run (errand : Errand) : Faithful Plain known m (run errand) := by
  cases errand with
  | heartbeat target request => exact faithful_heartbeat holds target request
  | suspicion view suspect reason => exact faithful_announce holds view suspect reason
  | finalCheck target request => exact faithful_finalCheck holds target request
  | removal coordinator member reason =>
    exact faithful_bind (faithful_sendDirect holds coordinator fun v carries => by cases carries)
      fun more n _ _ holds _ => faithful_pure holds trivial

theorem faithful_execute (action : Detector.Action) : Faithful Plain known m (execute action) := by
  cases action with
  | sendHeartbeat | sendFinalCheck | requestRemoval =>
    exact faithful_modify ((notice_alike m _).holds holds)
  | broadcastSuspect suspect reason =>
    refine faithful_modify ?_
    split
    · exact (notice_alike m _).holds holds
    · exact holds
  | installView view => exact faithful_changeView _
  | partitionDetected unreachable lost total =>
    exact faithful_modify (((count_alike m _).trans (notice_alike _ _)).holds holds)

theorem faithful_executeEach (actions : List Detector.Action) :
    Faithful Plain known m (executeEach actions) := by
  induction actions generalizing known m with
  | nil => exact faithful_pure holds trivial
  | cons action rest ih =>
    unfold executeEach
    exact faithful_bind (faithful_execute holds action) fun more n _ _ holds _ => ih holds

theorem faithful_onDetectorEvent (event : Detector.Event) :
    Faithful Plain known m (onDetectorEvent event) := by
  refine faithful_get_bind ?_
  cases m.detector with
  | none => exact faithful_pure holds trivial
  | some d =>
    have settled := holds_of_view
      (n := { m with detector := some ((m.clocked d).handle event).1 }) rfl holds
    exact faithful_set_bind settled (faithful_executeEach settled _)

/-! ### The application -/

omit holds in
/-- What an application may send carries no view. -/
theorem view?_of_allowed {message : Message} (allowed : m.refusal? message = none) (v : View)
    (carries : message.payload.view? = some v) : known v := by
  unfold refusal? at allowed
  split at allowed
  · contradiction
  · contradiction
  all_goals
    split at allowed
    · rename_i application
      obtain ⟨sender, recipient, payload⟩ := message
      cases payload with
      | joinResponse | installView => contradiction
      | _ => cases carries
    · contradiction

theorem faithful_send (recipient : Member) (message : Message) :
    Faithful Plain known m (send recipient message) := by
  unfold send
  refine faithful_get_bind ?_
  cases allowed : m.refusal? message with
  | some e => exact faithful_pure holds trivial
  | none =>
    refine faithful_ite (fun _ => faithful_perform (.handler _) rfl) fun _ => ?_
    split
    · exact faithful_deliver holds _ (view?_of_allowed allowed)
    · exact faithful_ite (fun _ => faithful_pure holds trivial) fun _ =>
        faithful_deliver holds _ (view?_of_allowed allowed)

theorem faithful_broadcast (message : Message) :
    Faithful Plain known m (broadcast message) := by
  unfold broadcast
  refine faithful_get_bind ?_
  cases allowed : m.refusal? message with
  | some e => exact faithful_pure holds trivial
  | none =>
    dsimp only
    cases m.view with
    | none => exact faithful_pure holds trivial
    | some view =>
      refine faithful_ite (fun _ => faithful_pure holds trivial) fun _ => ?_
      refine faithful_bind (faithful_deliverAll holds fun d member v carries => ?_)
        fun more n _ _ holds _ => faithful_pure holds trivial
      obtain ⟨r, -, rfl⟩ := List.mem_map.mp member
      exact view?_of_allowed allowed v carries

end

end Manager

end Cohort
