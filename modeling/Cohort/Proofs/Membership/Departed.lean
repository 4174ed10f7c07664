import Cohort.Proofs.Membership.Installation
import Cohort.Proofs.Membership.Issue

/-! What becomes of messages to members that are gone. A member remembers who is gone from what the
views that it installs say of the views before them; views that never reach it may have said more. -/

namespace Cohort

/-- A procedure can end with a result when what it waits for is answered as permitted, whatever else
goes on meanwhile. -/
inductive Procedure.Ends {σ α : Type} (permitted : (effect : Effect) → effect.Answer → Prop) :
    σ → Procedure σ α → α → Prop where
  | done (s : σ) (result : α) : Ends permitted s (.done result) result
  | read {s : σ} {next : σ → Procedure σ α} {result : α} :
      Ends permitted s (next s) result → Ends permitted s (.read next) result
  | write {s t : σ} {next : Procedure σ α} {result : α} :
      Ends permitted t next result → Ends permitted s (.write t next) result
  | await {s t : σ} {effect : Effect} {next : effect.Answer → Procedure σ α} {result : α}
      (answer : effect.Answer) (fine : permitted effect answer) :
      Ends permitted t (next answer) result → Ends permitted s (.await effect next) result

namespace Procedure

variable {σ α β : Type} {permitted : (effect : Effect) → effect.Answer → Prop} {s : σ}

/-- What ends after two parts has ended the first. -/
theorem ends_bind {p : Procedure σ α} {f : α → Procedure σ β} {result : β}
    (ends : Ends permitted s (p >>= f) result) :
    ∃ a t, Ends permitted s p a ∧ Ends permitted t (f a) result := by
  change Ends permitted s (p.bind f) result at ends
  induction p generalizing s with
  | done a => exact ⟨a, s, .done s a, ends⟩
  | read next ih =>
    cases ends with
    | read later =>
      obtain ⟨a, t, first, second⟩ := ih s later
      exact ⟨a, t, .read first, second⟩
  | write n next ih =>
    cases ends with
    | write later =>
      obtain ⟨a, t, first, second⟩ := ih later
      exact ⟨a, t, .write first, second⟩
  | await effect next ih =>
    cases ends with
    | await answer fine later =>
      obtain ⟨a, t, first, second⟩ := ih answer later
      exact ⟨a, t, .await answer fine first, second⟩

theorem ends_get_bind {f : σ → Procedure σ β} {result : β}
    (ends : Ends permitted s (get >>= f) result) : Ends permitted s (f s) result := by
  change Ends permitted s (.read fun t => f t) result at ends
  cases ends with
  | read later => exact later

theorem ends_pure {a result : α} (ends : Ends permitted s (pure a : Procedure σ α) result) :
    result = a := by
  change Ends permitted s (.done a) result at ends
  cases ends
  rfl

theorem ends_ite {c : Prop} [Decidable c] {p q : Procedure σ α} {result : α}
    (ends : Ends permitted s (if c then p else q) result) :
    Ends permitted s p result ∨ ¬ c ∧ Ends permitted s q result := by
  by_cases holds : c
  · rw [if_pos holds] at ends
    exact Or.inl ends
  · rw [if_neg holds] at ends
    exact Or.inr ⟨holds, ends⟩

theorem ends_perform {effect : Effect} {result : effect.Answer}
    (ends : Ends permitted s (perform effect : Procedure σ effect.Answer) result) :
    permitted effect result := by
  change Ends permitted s (.await effect .done) result at ends
  cases ends with
  | await answer fine later =>
    cases later
    exact fine

/-- The result of a procedure that waits for nothing. -/
def immediate (p : Procedure σ α) (s : σ) : Option α :=
  match (p.run s).2 with
  | .done result => some result
  | .waiting _ _ => none

theorem immediate_get_bind (f : σ → Procedure σ β) (s : σ) :
    (get >>= f : Procedure σ β).immediate s = (f s).immediate s := rfl

theorem immediate_else {c : Prop} [Decidable c] {p q : Procedure σ α} {s : σ} (no : ¬ c) :
    (if c then p else q).immediate s = q.immediate s := by
  rw [if_neg no]

end Procedure

namespace Manager

/-- Neither the messenger nor a handler finds that a member was removed. -/
def Honest : (effect : Effect) → effect.Answer → Prop
  | .deliver _, (results : List (Except ServiceError Unit)) =>
    ∀ result ∈ results, ∀ text, result ≠ .error (.memberRemoved text)
  | .handler _, (result : Except ServiceError Unit) => ∀ text, result ≠ .error (.memberRemoved text)
  | _, _ => True

/-- A message to somebody is refused because he is gone, and nothing is sent. -/
def FailsFast (m : Manager) (recipient : Member) (message : Message) : Prop :=
  (send recipient message).immediate m = some (.error (.memberRemoved recipient.text))

instance (m : Manager) (recipient : Member) (message : Message) :
    Decidable (m.FailsFast recipient message) :=
  inferInstanceAs (Decidable (_ = _))

section
variable {m : Manager} {recipient : Member} {message : Message}

theorem refusal?_none (running : m.phase = .running) (application : message.kind.isApplication = true) :
    m.refusal? message = none := by
  simp only [refusal?, running, application, if_true]

/-- A delivery needs the messenger, or fails because there is none. -/
theorem deliver_immediate (target : Recipient) (text : String) :
    (deliver target message).immediate m ≠ some (.error (.memberRemoved text)) := by
  change (Procedure.bind (if m.channel.isNone then
      Procedure.done [.error (.config .channelDisabled)]
    else Procedure.perform (.deliver [⟨target, message⟩])) _).immediate m ≠ _
  cases m.channel.isNone with
  | true => exact fun same => by cases same
  | false => exact fun same => by cases same

/-- A message to somebody who is not in the view is refused exactly if he is known to be gone. -/
theorem failsFast_iff (running : m.phase = .running) (application : message.kind.isApplication = true)
    (other : recipient.same m.self = false)
    (absent : ∀ v, m.view = some v → v.contains recipient = false) :
    m.FailsFast recipient message ↔ recipient.isIn m.departed = true := by
  have unknown : m.view.bind (·.get? recipient) = none := by
    cases viewed : m.view with
    | none => rfl
    | some v =>
      refine List.find?_eq_none.mpr fun x member => ?_
      have outside := absent v viewed
      rw [View.contains, ← Bool.not_eq_true, Member.isIn_iff] at outside
      exact fun alike => outside ⟨x, member, alike⟩
  have goes : (send recipient message).immediate m =
      if recipient.isIn m.departed then some (.error (.memberRemoved recipient.text))
      else (deliver (.member recipient) message).immediate m := by
    unfold send
    rw [Procedure.immediate_get_bind]
    simp only [refusal?_none running application]
    refine (Procedure.immediate_else (by rw [other]; decide)).trans ?_
    simp only [unknown]
    split <;> rfl
  rw [FailsFast, goes]
  by_cases gone : recipient.isIn m.departed = true
  · simp [gone]
  · rw [if_neg gone]
    exact ⟨fun fails => absurd fails (deliver_immediate _ _), fun known => absurd known gone⟩

theorem deliver_honest {target : Recipient} {text : String} :
    ¬ Procedure.Ends Honest m (deliver target message) (.error (.memberRemoved text)) := by
  intro ends
  obtain ⟨results, n, first, last⟩ := Procedure.ends_bind ends
  have fine : ∀ result ∈ results, ∀ text, result ≠ .error (.memberRemoved text) := by
    have first := Procedure.ends_get_bind first
    split at first
    · rw [Procedure.ends_pure first]
      simp
    · exact Procedure.ends_perform first
  cases results with
  | nil => exact absurd (Procedure.ends_pure last) (by simp)
  | cons result rest => exact fine result List.mem_cons_self text (Procedure.ends_pure last).symm

/-- Nobody in the view is taken for gone. -/
theorem send_honest (running : m.phase = .running) (application : message.kind.isApplication = true)
    {v : View} (viewed : m.view = some v) (inside : v.contains recipient = true) {text : String} :
    ¬ Procedure.Ends Honest m (send recipient message) (.error (.memberRemoved text)) := by
  intro ends
  have ends := Procedure.ends_get_bind ends
  simp only [refusal?_none running application] at ends
  rcases Procedure.ends_ite ends with handled | ⟨-, sent⟩
  · exact Procedure.ends_perform handled text rfl
  · obtain ⟨x, member, alike⟩ := (Member.isIn_iff _ _).mp inside
    cases found : v.get? recipient with
    | none => exact absurd alike (List.find?_eq_none.mp found x member)
    | some known =>
      simp only [viewed, Option.bind_some, found] at sent
      exact deliver_honest sent

end

namespace Course

/-- A view names somebody as gone. -/
def Named (made : List Installation) (r : Member) : Prop :=
  ∃ i ∈ made, r.isIn i.view.crashed = true ∨ r.isIn i.view.shutdown = true

/-- A view names everybody who is not in it any more. -/
def Installation.Complete (i : Installation) : Prop :=
  ∀ u, i.previous = some u → ∀ x ∈ u.members, i.view.contains x = false →
    x.isIn i.view.crashed = true ∨ x.isIn i.view.shutdown = true

section
variable {c : Course}

/-- Whoever a member knows to be gone was named by a view that it installed. -/
theorem departed_after (restrained : ∀ w ∈ c.works, w.Restrained) (moves : List Move) :
    (c.after moves).manager.departed = c.manager.departed ++
      (c.installations moves).flatMap fun i => i.view.crashed ++ i.view.shutdown := by
  induction moves generalizing c with
  | nil => exact (List.append_nil _).symm
  | cons x rest ih =>
    have later := ih (restrained_move restrained x)
    rcases installation_cases restrained x with plain | ⟨view, enters, -, made⟩
    · rw [plain.departed] at later
      rw [installations_of_none plain.none]
      exact later
    · rw [enters.departed] at later
      rw [installations_of_some made, List.flatMap_cons]
      simpa only [after_cons, List.append_assoc] using later

theorem isIn_departed (restrained : ∀ w ∈ c.works, w.Restrained) (unaware : c.manager.departed = [])
    (moves : List Move) (r : Member) :
    r.isIn (c.after moves).manager.departed = true ↔ Named (c.installations moves) r := by
  simp only [departed_after restrained moves, unaware, List.nil_append, Member.isIn_iff, Named,
    List.mem_flatMap, List.mem_append]
  constructor
  · rintro ⟨x, ⟨i, member, crashed | left⟩, alike⟩
    · exact ⟨i, member, Or.inl ⟨x, crashed, alike⟩⟩
    · exact ⟨i, member, Or.inr ⟨x, left, alike⟩⟩
  · rintro ⟨i, member, ⟨x, crashed, alike⟩ | ⟨x, left, alike⟩⟩
    · exact ⟨x, ⟨i, member, Or.inl crashed⟩, alike⟩
    · exact ⟨x, ⟨i, member, Or.inr left⟩, alike⟩

/-- Where no view leaves anybody out without a word, whoever is in the view and later is not was
named on the way. -/
theorem named_of_complete (restrained : ∀ w ∈ c.works, w.Restrained) {moves : List Move} {r : Member}
    {v : View} (known : c.manager.view = some v) (inside : v.contains r = true)
    (complete : ∀ i ∈ c.installations moves, i.Complete)
    (gone : ∀ v, (c.after moves).manager.view = some v → v.contains r = false) :
    Named (c.installations moves) r := by
  induction moves generalizing c v with
  | nil =>
    rw [gone v known] at inside
    contradiction
  | cons x rest ih =>
    have later := restrained_move restrained x
    rcases installation_cases restrained x with plain | ⟨view, enters, -, made⟩
    · rw [installations_of_none plain.none] at complete ⊢
      exact ih later (plain.view.trans known) inside complete gone
    · rw [installations_of_some made] at complete ⊢
      by_cases stays : view.contains r = true
      · obtain ⟨i, member, named⟩ := ih later enters.taken stays
          (fun i member => complete i (List.mem_cons_of_mem _ member)) gone
        exact ⟨i, List.mem_cons_of_mem _ member, named⟩
      · -- This is the view that leaves him out, so it names him.
        obtain ⟨y, member, alike⟩ := (Member.isIn_iff _ _).mp inside
        have absent : view.contains y = false := by
          rw [← View.contains_congr alike]
          simpa using stays
        refine ⟨_, List.mem_cons_self, ?_⟩
        rw [Member.isIn_congr alike, Member.isIn_congr alike]
        exact complete _ List.mem_cons_self v known y member absent

theorem named_of_installed (restrained : ∀ w ∈ c.works, w.Restrained) {moves : List Move} {r : Member}
    {i : Installation} (member : i ∈ c.installations moves) (inside : i.view.contains r = true)
    (complete : ∀ i ∈ c.installations moves, i.Complete)
    (gone : ∀ v, (c.after moves).manager.view = some v → v.contains r = false) :
    Named (c.installations moves) r := by
  induction moves generalizing c with
  | nil => simp [installations] at member
  | cons x rest ih =>
    have later := restrained_move restrained x
    rcases installation_cases restrained x with plain | ⟨view, enters, -, made⟩
    · rw [installations_of_none plain.none] at member complete ⊢
      exact ih later member complete gone
    · rw [installations_of_some made] at member complete ⊢
      have fewer : ∀ i ∈ (c.move x).installations rest, i.Complete :=
        fun i there => complete i (List.mem_cons_of_mem _ there)
      have named : Named ((c.move x).installations rest) r := by
        rcases List.mem_cons.mp member with rfl | then_
        · exact named_of_complete later enters.taken inside fewer gone
        · exact ih later then_ fewer gone
      obtain ⟨j, there, gives⟩ := named
      exact ⟨j, List.mem_cons_of_mem _ there, gives⟩

/-- A member that installed a view has one. -/
theorem viewed_of_installed (restrained : ∀ w ∈ c.works, w.Restrained) {moves : List Move}
    {i : Installation} (member : i ∈ c.installations moves) :
    ∃ v, (c.after moves).manager.view = some v := by
  rw [(last_installation restrained moves).1]
  cases made : c.installations moves with
  | nil =>
    rw [made] at member
    contradiction
  | cons j rest =>
    rw [List.map_cons, List.getLastD_cons]
    have last : (rest.map (some ·.view)).getLastD (some j.view) ∈ (j :: rest).map (some ·.view) :=
      List.getLastD_mem_cons
    obtain ⟨k, -, same⟩ := List.mem_map.mp last
    exact ⟨k.view, same.symm⟩

end

/-- Somebody was in a view that the member installed, and is not in the one that it has. -/
def Gone (made : List Installation) (m : Manager) (r : Member) : Prop :=
  (∃ i ∈ made, i.view.contains r = true) ∧ ∀ v ∈ m.view, v.contains r = false

instance (made : List Installation) (m : Manager) (r : Member) : Decidable (Gone made m r) :=
  inferInstanceAs (Decidable (_ ∧ _))

instance (made : List Installation) (r : Member) : Decidable (Named made r) :=
  inferInstanceAs (Decidable (∃ _ ∈ _, _))

/-- While a member runs, messages to somebody who is gone fail fast if and only if a view that it
installed names him. So they all do if each view that it installed names everybody who is missing from
it; and messages to those in the view are never refused so. -/
theorem gone_fails_fast_iff (config : Config) (policy : LossPolicy) (self : Member)
    (channel : Option Net.Endpoint) (rota : Detector.Rota) (moves : List Move) (message : Message)
    (running : ((fresh config policy self channel rota).after moves).manager.phase = .running)
    (application : message.kind.isApplication = true) :
    let c := fresh config policy self channel rota
    let m := (c.after moves).manager
    let made := c.installations moves
    (∀ r, Gone made m r → (m.FailsFast r message ↔ Named made r)) ∧
    ((∀ i ∈ made, i.Complete) → ∀ r, Gone made m r → m.FailsFast r message) ∧
    (∀ r v, m.view = some v → v.contains r = true →
      ∀ text, ¬ (send r message).Ends Honest m (.error (.memberRemoved text))) := by
  intro c m made
  have restrained : ∀ w ∈ c.works, w.Restrained := by simp [c, fresh]
  have sound := (kept_after (kept_fresh config policy self channel rota) moves).sound
  have each : ∀ r, Gone made m r → (m.FailsFast r message ↔ Named made r) := by
    rintro r ⟨⟨i, member, inside⟩, absent⟩
    obtain ⟨v, viewed⟩ := viewed_of_installed restrained member
    have other : r.same m.self = false := by
      rw [← Bool.not_eq_true]
      intro own
      have here := sound.present v viewed
      rw [← View.contains_congr own, absent v viewed] at here
      contradiction
    rw [failsFast_iff running application other absent]
    exact isIn_departed restrained rfl moves r
  refine ⟨each, fun complete r gone => (each r gone).mpr ?_, fun r v viewed inside text => ?_⟩
  · obtain ⟨⟨i, member, inside⟩, absent⟩ := gone
    exact named_of_installed restrained member inside complete absent
  · exact send_honest running application viewed inside

/-- A message of an application. -/
def hello : Message := .of (.application 7 [])

/-- A member that was admitted and asks to be let go is remembered. -/
def departs : List Move :=
  [.begin .start, asks (.peer 2), .resume 0 granted, .resume 0 granted,
    .begin (.direct { sender := some (.peer 2), payload := .leaveRequest (.peer 2) "" }),
    .resume 0 granted]

theorem departs_fails_fast : (founder.after departs).manager.FailsFast (.peer 2) hello :=
  ((gone_fails_fast_iff _ _ _ _ _ departs hello (by decide) rfl).1 (.peer 2) (by decide)).mpr
    (by decide)

/-- Somebody joins and leaves in views of others, of which the member gets the one with him and the
one after those that name him. -/
def unnoticed : List Move :=
  let hands (view : View) : Move :=
    .begin (.direct { sender := some view.creator, payload := .installView view })
  let early : View := ⟨5, .peer 2, [.peer 2, .peer 1, .peer 3], [], []⟩
  [.begin .start, hands early, hands { early with id := 7, members := [.peer 2, .peer 1] }]

theorem unnoticed_sends_on :
    let m := (founder.after unnoticed).manager
    m.phase = .running ∧
      ¬ ∀ r, Gone (founder.installations unnoticed) m r → m.FailsFast r hello := by
  refine ⟨by decide, fun all => ?_⟩
  exact absurd (all (.peer 3) (by decide)) (by decide)

end Course

end Manager

end Cohort
