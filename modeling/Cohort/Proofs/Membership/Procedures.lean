import Cohort.Membership.Application
import Cohort.Membership.Leaving
import Cohort.Membership.Reception
import Cohort.Membership.Watch
import Cohort.Proofs.Health.Removal
import Cohort.Proofs.Membership.Pieces

/-! All that a member does keeps to the rules of `Lawful`. Only a leaving coordinator and the detector
decide on a change before they have the turn, both on what they see in the piece in which they ask. -/

namespace Cohort.Manager

section
variable (b m : Manager)

/-! ### Changing the view -/

theorem lawful_handOut (change : ViewChange) (next : View) : Lawful b m (handOut change next) := by
  unfold handOut
  exact lawful_get_bind (lawful_bind (lawful_deliverAll b m _) fun _ b n => lawful_pure _)

theorem lawful_distribute (change : ViewChange) (next : Option View) :
    Lawful b m (distribute change next) := by
  cases next with
  | none => exact lawful_pure _
  | some next =>
    refine lawful_modify_bind ?_ (lawful_handOut b _ change next)
    split
    · exact adopt_grows m next
    · exact .refl m

theorem lawful_useTurn (change : ViewChange) : Lawful b m (useTurn change) := by
  refine lawful_get_bind (lawful_bind (lawful_distribute b m change _) fun _ b n => ?_)
  exact lawful_modify (notice_alike n _).grows

theorem lawful_changeView {change : ViewChange}
    (decided : b.Sound → Decided change (b.basis change) b.self) :
    Lawful b m (changeView change) := by
  change Lawful b m (.await (.changeTurn change) fun _ => useTurn change)
  refine .await decided ⟨.done, ?_⟩ fun _ n => lawful_useTurn n n change
  exact (Procedure.bind_done _).symm

theorem lawful_letIn (joiner : Member) : Lawful b m (letIn joiner) := by
  refine lawful_bind (lawful_changeView b m fun _ => trivial) fun _ b n => lawful_get_bind ?_
  cases n.view with
  | none => exact lawful_pure _
  | some view => exact lawful_ite (fun _ => lawful_pure _) fun _ => lawful_pure _

theorem lawful_joinAnswerFor (joiner : Member) : Lawful b m (joinAnswerFor joiner) := by
  refine lawful_get_bind ?_
  cases activeView m with
  | none => exact lawful_pure _
  | some view =>
    dsimp only
    cases view.coordinator with
    | none => exact lawful_letIn b m joiner
    | some coordinator =>
      exact lawful_ite (fun _ => lawful_letIn b m joiner) fun _ => lawful_pure _

/-! ### Joining -/

/-- Asking one locator is within the rules, however often it may still be followed. -/
theorem lawful_joinThrough_of (redirects : Nat) (target : Net.Endpoint)
    (follow : ∀ b n rest next, redirects = rest + 1 → Lawful b n (joinThrough rest next)) :
    Lawful b m (joinThrough redirects target) := by
  unfold joinThrough
  refine lawful_get_bind (lawful_bind (lawful_deliver b m _ _) fun delivered b n => ?_)
  cases delivered with
  | error e => exact lawful_pure _
  | ok _ =>
    refine lawful_bind (lawful_perform _ rfl) fun outcome b n => ?_
    cases outcome with
    | closed | silence => exact lawful_pure _
    | answered answer =>
      cases answer with
      | accepted view | rejected reason => exact lawful_pure _
      | redirect coordinator =>
        dsimp only
        cases coordinator.directAddress? with
        | none => exact lawful_pure _
        | some next =>
          cases redirects with
          | zero => exact lawful_pure _
          | succ rest => exact follow b n rest next rfl

theorem lawful_joinThrough (redirects : Nat) (target : Net.Endpoint) :
    Lawful b m (joinThrough redirects target) := by
  induction redirects generalizing target b m with
  | zero => exact lawful_joinThrough_of b m 0 target fun b n rest next none => by simp at none
  | succ redirects ih =>
    refine lawful_joinThrough_of b m (redirects + 1) target fun b n rest next same => ?_
    rw [← Nat.succ.inj same]
    exact ih b n next

theorem lawful_joinThroughEach (locators : List Net.Endpoint) :
    Lawful b m (joinThroughEach locators) := by
  induction locators generalizing b m with
  | nil => exact lawful_pure _
  | cons locator rest ih =>
    unfold joinThroughEach
    refine lawful_bind (lawful_joinThrough b m maxRedirects locator) fun joined b n => ?_
    split
    · exact lawful_pure _
    · exact lawful_pure _
    · exact ih b n
    · exact ih b n

theorem lawful_joinThroughLocators : Lawful b m joinThroughLocators := by
  unfold joinThroughLocators
  refine lawful_get_bind (lawful_ite (fun _ => lawful_pure _) fun _ => ?_)
  refine lawful_set_bind (Alike.grows ⟨rfl, rfl, rfl⟩) ?_
  refine lawful_bind (lawful_joinThroughEach b _ _) fun joined b n => ?_
  cases joined with
  | error e => exact lawful_pure _
  | ok view => exact lawful_modify_bind (Alike.grows ⟨rfl, rfl, rfl⟩) (lawful_pure _)

theorem lawful_enterGroup : Lawful b m enterGroup := by
  refine lawful_bind (lawful_joinThroughLocators b m) fun joined b n => ?_
  cases joined with
  | error e => exact lawful_pure _
  | ok view =>
    refine lawful_modify_bind ?_ (lawful_pure _)
    have adopts := adopt_grows n (view.getD (View.initial n.self))
    dsimp only
    split
    · exact adopts.trans (Alike.grows ⟨rfl, rfl, rfl⟩)
    · exact adopts

/-! ### Leaving -/

theorem lawful_endWatch : Lawful b m endWatch :=
  lawful_modify_bind (Alike.grows ⟨rfl, rfl, rfl⟩) (lawful_get_bind (lawful_perform _ rfl))

theorem lawful_endPulse : Lawful b m endPulse :=
  lawful_modify_bind (Alike.grows ⟨rfl, rfl, rfl⟩) (lawful_get_bind (lawful_perform _ rfl))

theorem lawful_shutdown : Lawful b m shutdown := by
  have falls : Alike m.stopDetector ((({ m.stopDetector with
      listening := false, expectsAnswer := false } : Manager).notice .deafened).notice .joinAnswer) :=
    ⟨rfl, rfl, rfl⟩
  unfold shutdown
  refine lawful_modify_bind ((stopDetector_grows m).trans falls.grows) ?_
  refine lawful_bind (lawful_endWatch b _) fun _ b n => ?_
  refine lawful_bind (lawful_endPulse b n) fun _ b n => lawful_get_bind ?_
  exact lawful_ite (fun _ => lawful_bind (lawful_perform _ rfl) fun _ b n => lawful_perform _ rfl)
    fun _ => lawful_perform _ rfl

theorem lawful_close : Lawful b m close := by
  refine lawful_modify_bind (Alike.grows ⟨rfl, rfl, rfl⟩) (lawful_get_bind ?_)
  split
  · exact lawful_pure _
  · exact lawful_perform _ rfl
  · refine lawful_modify_bind (Alike.grows ⟨rfl, rfl, rfl⟩) ?_
    refine lawful_bind (lawful_shutdown b _) fun _ b n => ?_
    exact lawful_modify (Alike.grows ⟨rfl, rfl, rfl⟩)

theorem lawful_leave : Lawful m m leave := by
  refine lawful_get_bind ?_
  have closes : ∀ b n, Lawful b n (do close; return .ok () : Act (Except ServiceError Unit)) :=
    fun b n => lawful_bind (lawful_close b n) fun _ b n => lawful_pure _
  cases active : activeView m with
  | none => exact closes m m
  | some view =>
    refine lawful_ite (fun _ => lawful_bind ?_ fun _ b n => closes b n) fun _ => closes m m
    refine lawful_get_bind ?_
    cases elected : view.coordinator with
    | none => exact lawful_pure _
    | some coordinator =>
      refine lawful_ite (fun own => ?_) fun _ => ?_
      · refine lawful_changeView m m fun _ => ⟨view, ?_, by rw [elected]; exact own⟩
        unfold activeView at active
        split at active
        · exact active
        · contradiction
      · exact lawful_bind (lawful_sendDirect m m _ _) fun _ b n => lawful_pure _

theorem lawful_start : Lawful b m start := by
  refine lawful_bind (lawful_enterGroup b m) fun entered b n => ?_
  cases entered with
  | ok _ => exact lawful_pure _
  | error e => exact lawful_bind (lawful_close b n) fun _ b n => lawful_pure _

/-! ### What is received -/

theorem lawful_answered (counter : Counter) (result : Except ServiceError Unit) :
    Lawful b m (answered counter result) := by
  cases result with
  | ok _ => exact lawful_modify_bind (count_alike m counter).grows (lawful_pure _)
  | error e => exact lawful_pure _

theorem lawful_react {f : Manager → Manager} (grows : Grows m (f m)) : Lawful b m (react f) :=
  lawful_modify_bind grows (lawful_pure _)

theorem lawful_onDatagramPayload (sender : Member) (payload : Payload) :
    Lawful b m (onDatagramPayload sender payload) := by
  unfold onDatagramPayload
  split
  · refine lawful_modify_bind (count_alike m _).grows (lawful_get_bind ?_)
    refine lawful_ite (fun _ => ?_) fun _ => lawful_pure _
    exact lawful_bind (lawful_sendDatagram b _ _ _) fun result b n => lawful_answered b n _ _
  · exact lawful_react b m ((count_alike m _).trans (feed_alike _ _)).grows
  · exact lawful_react b m ((count_alike m _).trans (feed_alike _ _)).grows
  · exact lawful_pure _

theorem lawful_onDatagram (source : Net.Endpoint) (data : List UInt8) :
    Lawful b m (onDatagram source data) := by
  refine lawful_modify_bind (count_alike m _).grows ?_
  cases Codec.decode .current data with
  | error fault => exact lawful_pure _
  | ok message =>
    refine lawful_modify_bind (Alike.grows ⟨rfl, rfl, rfl⟩) ?_
    cases datagramSender source message with
    | error refusal => exact lawful_pure _
    | ok sender =>
      refine lawful_get_bind (lawful_ite (fun _ => lawful_pure _) fun _ => ?_)
      exact lawful_onDatagramPayload b _ sender _

theorem lawful_onFinalCheck (sender target : Member) (request : UInt64) :
    Lawful b m (onFinalCheck sender target request) := by
  refine lawful_modify_bind (count_alike m _).grows (lawful_get_bind ?_)
  refine lawful_ite (fun _ => ?_) fun _ => lawful_pure _
  exact lawful_bind (lawful_sendDirect b _ _ _) fun result b n => lawful_answered b n _ _

theorem lawful_onJoinRequest (joiner : Member) : Lawful b m (onJoinRequest joiner) := by
  refine lawful_bind (lawful_joinAnswerFor b m joiner) fun answer b n => ?_
  refine lawful_bind (lawful_sendDirect b n joiner _) fun result b n => ?_
  cases result <;> exact lawful_pure _

theorem takeJoinAnswer_alike (answer : JoinAnswer) : Alike m (m.takeJoinAnswer answer) := by
  unfold takeJoinAnswer
  split <;> exact ⟨rfl, rfl, rfl⟩

theorem takeView_grows (sender : Member) (view : View) : Grows m (m.takeView sender view) := by
  unfold takeView
  split
  · exact .refl m
  · exact adopt_grows m view

theorem lawful_onDirectPayload (sender : Member) (payload : Payload) :
    Lawful b m (onDirectPayload sender payload) := by
  unfold onDirectPayload
  split
  · exact lawful_onFinalCheck b m sender _ _
  · exact lawful_react b m ((count_alike m _).trans (feed_alike _ _)).grows
  · exact lawful_onJoinRequest b m sender
  · exact lawful_react b m (takeJoinAnswer_alike m _).grows
  · exact lawful_bind (lawful_changeView b m fun _ => trivial) fun _ b n => lawful_pure _
  · exact lawful_react b m (feed_alike m _).grows
  · exact lawful_react b m (takeView_grows m sender _)
  · exact lawful_pure _

theorem lawful_onDirect (message : Message) : Lawful b m (onDirect message) := by
  unfold onDirect
  split
  · exact lawful_onDirectPayload b m _ _
  · exact lawful_pure _

/-! ### The failure detector -/

theorem lawful_counted (counter : Counter) (isOk : Bool) :
    Lawful b m (if isOk then modify (·.count counter) else pure () : Act Unit) :=
  lawful_ite (fun _ => lawful_modify (count_alike m counter).grows) fun _ => lawful_pure _

theorem lawful_heartbeat (target : Member) (request : UInt64) :
    Lawful b m (heartbeat target request) :=
  lawful_bind (lawful_sendDatagram b m _ _) fun _ b n => lawful_counted b n _ _

theorem lawful_tellEach (payload : Payload) (members : List Member) :
    Lawful b m (tellEach payload members) := by
  induction members generalizing b m with
  | nil => exact lawful_pure _
  | cons x rest ih =>
    unfold tellEach
    refine lawful_bind (lawful_sendDatagram b m x payload) fun result b n => ?_
    exact lawful_ite (fun _ => lawful_modify_bind (count_alike n _).grows (ih b _)) fun _ => ih b n

theorem lawful_announce (view : View) (suspect : Member) (reason : String) :
    Lawful b m (announce view suspect reason) := by
  unfold announce
  refine lawful_get_bind (lawful_ite (fun _ => ?_) fun _ => lawful_tellEach b m _ _)
  exact lawful_bind (lawful_sendMulticast b m _ _) fun _ b n => lawful_counted b n _ _

theorem lawful_finalCheck (target : Member) (request : UInt64) :
    Lawful b m (finalCheck target request) := by
  refine lawful_bind (lawful_sendDirect b m target _) fun result b n => lawful_modify ?_
  split
  · exact (count_alike n _).grows
  · exact (feed_alike n _).grows

theorem lawful_run (errand : Errand) : Lawful b m (run errand) := by
  cases errand with
  | heartbeat target request => exact lawful_heartbeat b m target request
  | suspicion view suspect reason => exact lawful_announce b m view suspect reason
  | finalCheck target request => exact lawful_finalCheck b m target request
  | removal coordinator member reason =>
    exact lawful_bind (lawful_sendDirect b m coordinator _) fun _ b n => lawful_pure _

theorem lawful_execute {action : Detector.Action}
    (decided : ∀ view, action = .installView view → b.Sound →
      Decided (.removal view.crashed) (b.basis (.removal view.crashed)) b.self) :
    Lawful b m (execute action) := by
  cases action with
  | sendHeartbeat | sendFinalCheck | requestRemoval => exact lawful_modify (notice_alike m _).grows
  | broadcastSuspect suspect reason =>
    refine lawful_modify ?_
    split
    · exact (notice_alike m _).grows
    · exact .refl m
  | installView view => exact lawful_changeView b m (decided view rfl)
  | partitionDetected unreachable lost total =>
    exact lawful_modify ((count_alike m _).trans (notice_alike _ _)).grows

/-- Actions without a view among them leave nothing to decide. -/
theorem lawful_executeEach {actions : List Detector.Action}
    (tame : ∀ view, .installView view ∉ actions) : Lawful b m (executeEach actions) := by
  induction actions generalizing b m with
  | nil => exact lawful_pure _
  | cons action rest ih =>
    unfold executeEach
    refine lawful_bind (lawful_execute b m fun view same => ?_) fun _ b n =>
      ih b n fun view member => tame view (List.mem_cons_of_mem _ member)
    exact absurd (same ▸ List.mem_cons_self) (tame view)

theorem lawful_onDetectorEvent (event : Detector.Event) : Lawful m m (onDetectorEvent event) := by
  refine lawful_get_bind ?_
  cases watching : m.detector with
  | none => exact lawful_pure _
  | some d =>
    let acts := (m.clocked d).move (.handle event)
    have self : acts.1.self = d.self := Detector.move_self (m.clocked d) (.handle event)
    refine lawful_set_bind (settle_detector watching self) ?_
    change Lawful m _ (executeEach acts.2)
    by_cases installs : ∃ view, .installView view ∈ acts.2
    · obtain ⟨view, wanted⟩ := installs
      obtain ⟨alone, failed, coordinator, elected, own, next, -⟩ := Detector.move_installs wanted
      rw [alone]
      refine lawful_bind (lawful_execute m _ fun other same sound => ?_) fun _ b n => lawful_pure _
      cases same
      refine ⟨d.view, failed, by simp only [basis, watching, Option.map_some], by rw [next]; rfl, ?_⟩
      exact (isSelf_iff _ _).mpr
        ⟨coordinator, elected, Member.same_trans own (sound.watched d watching)⟩
    · exact lawful_executeEach m _ fun view member => installs ⟨view, member⟩

/-! ### The application -/

theorem lawful_send (recipient : Member) (message : Message) :
    Lawful b m (send recipient message) := by
  unfold send
  refine lawful_get_bind ?_
  cases m.refusal? message with
  | some e => exact lawful_pure _
  | none =>
    refine lawful_ite (fun _ => lawful_perform _ rfl) fun _ => ?_
    split
    · exact lawful_deliver b m _ _
    · exact lawful_ite (fun _ => lawful_pure _) fun _ => lawful_deliver b m _ _

theorem lawful_broadcast (message : Message) : Lawful b m (broadcast message) := by
  unfold broadcast
  refine lawful_get_bind ?_
  cases m.refusal? message with
  | some e => exact lawful_pure _
  | none =>
    dsimp only
    cases m.view with
    | none => exact lawful_pure _
    | some view =>
      refine lawful_ite (fun _ => lawful_pure _) fun _ => ?_
      exact lawful_bind (lawful_deliverAll b m _) fun _ b n => lawful_pure _

end

end Cohort.Manager
