import Cohort.Proofs.Membership.News
import Cohort.Proofs.Membership.Outcome

/-! The actor that hands events to the failure detector, and all that goes on beside it. It handles one
event at a time, and keeps waiting with a removal until that has had its turn and is handed out. -/

namespace Cohort

namespace Manager

/-- The actor of the failure detector has come to another state. -/
def Course.posted (c : Course) (watch : Actor Detector.Event) : Course :=
  { c with manager := { c.manager with watch } }

/-- A member, and the actor of its failure detector. -/
structure Vigil where
  course : Course
  /-- What the actor waits with. -/
  duty : Option Work := none

namespace Vigil

/-- What may happen next. -/
inductive Move where
  /-- Anything but work of the actor. -/
  | beside (x : Course.Move)
  /-- The actor takes up what is next in its queue. -/
  | attend (now : Nat)
  | goOn (answer : (effect : Effect) → effect.Answer)

def fresh (config : Config) (policy : LossPolicy) (self : Member) (channel : Option Net.Endpoint)
    (rota : Detector.Rota := .listed) : Vigil where
  course := .fresh config policy self channel rota

/-- Only the actor hands events to the detector, and only it takes them from its queue. -/
def allowed (c : Course) : Course.Move → List Course.Move
  | .begin (.detectorEvent _) => []
  | .outside now _ pulse answers statistics notices =>
    [.outside now c.manager.watch pulse answers statistics notices]
  | x => [x]

/-- A piece of the actor's work runs. When the work is over, the actor is free for the next event. -/
def serve (c : Course) (p : Act Unit) : Vigil :=
  match p.run c.manager with
  | (m, .done _) => ⟨({ c with manager := m } : Course).posted m.watch.finish, none⟩
  | (m, .waiting effect next) =>
    ⟨{ c with manager := m }, some ⟨effect, next, Course.basisOf c.manager effect⟩⟩

def attend (c : Course) (now : Nat) : Vigil :=
  match c.manager.watch.turn now with
  | (watch, some (.command event)) => serve (c.posted watch) (onDetectorEvent event)
  | (watch, some .tick) => ⟨c.posted watch.finish, none⟩
  | (watch, none) => ⟨c.posted watch, none⟩

def move (v : Vigil) : Move → Vigil
  | .beside x => { v with course := v.course.after (allowed v.course x) }
  | .attend now =>
    match v.duty with
    | some _ => v
    | none => attend v.course now
  | .goOn answer =>
    match v.duty with
    | some w =>
      let served := serve v.course (w.next (answer w.effect))
      { served with course := served.course.record (Course.product v.course.manager w) }
    | none => v

def after (v : Vigil) : List Move → Vigil
  | [] => v
  | x :: rest => (v.move x).after rest

/-- Work that waits for no turn to change the view any more. -/
inductive Turnless {α : Type} : Act α → Prop where
  | done (result : α) : Turnless (.done result)
  | read {next : Manager → Act α} : (∀ m, Turnless (next m)) → Turnless (.read next)
  | write {m : Manager} {next : Act α} : Turnless next → Turnless (.write m next)
  | await {effect : Effect} {next : effect.Answer → Act α} :
      effect.isTurn = false → (∀ answer, Turnless (next answer)) → Turnless (.await effect next)

/-- What the actor may wait with: the turn for a removal, or what is left to do after that. -/
structure Duty (owner : Member) (w : Work) : Prop where
  pending : w.Pending owner
  restrained : w.Restrained
  removal : ∀ change, w.effect = .changeTurn change → ∃ crashed, change = .removal crashed
  once : ∀ answer, Turnless (w.next answer)

/-! ### The actor's work -/

theorem finish_serves {α : Type} {a : Actor α} (serves : a.Serves) : a.finish.Serves := by
  unfold Actor.finish
  split
  · exact ⟨serves.reachable, serves.wanted, by simp⟩
  · exact serves

@[simp] theorem finish_inbox {α : Type} (a : Actor α) : a.finish.inbox = a.inbox := by
  unfold Actor.finish
  split <;> rfl

/-- An actor that serves takes the first command, or else it may handle a tick. -/
theorem turn_cases {α : Type} {a : Actor α} (serves : a.Serves) (now : Nat) :
    (∃ command rest, a.inbox = command :: rest ∧
      a.turn now = ({ a with inbox := rest, phase := .busy }, some (.command command))) ∨
    ∃ b found, a.turn now = (b, found) ∧ b.Serves ∧ b.inbox = a.inbox ∧
      ∀ command, found ≠ some (.command command) := by
  unfold Actor.turn
  split
  · exact Or.inr ⟨a, none, rfl, serves, rfl, by simp⟩
  · rw [serves.wanted, if_neg Bool.false_ne_true]
    cases queued : a.inbox with
    | cons command rest => exact Or.inl ⟨command, rest, rfl, rfl⟩
    | nil =>
      refine Or.inr ?_
      simp only [serves.reachable, Bool.not_true, Bool.false_and, Bool.false_eq_true, if_false]
      unfold Actor.tickTurn
      cases a.ticker with
      | none => exact ⟨a, none, rfl, serves, queued, by simp⟩
      | some t =>
        dsimp only
        split
        · exact ⟨_, _, rfl, ⟨serves.reachable, serves.wanted, by simp⟩, queued, by simp⟩
        · exact ⟨a, none, rfl, serves, queued, by simp⟩

section
variable {α β : Type}

theorem turnless_bind {p : Act α} {f : α → Act β} (first : Turnless p)
    (later : ∀ a, Turnless (f a)) : Turnless (p >>= f) := by
  change Turnless (p.bind f)
  induction first with
  | done result => exact later result
  | read _ ih => exact .read ih
  | write _ ih => exact .write ih
  | await other _ ih => exact .await other ih

theorem turnless_get : Turnless (get : Act Manager) := .read fun m => .done m

theorem turnless_modify (f : Manager → Manager) : Turnless (modify f : Act Unit) :=
  .read fun _ => .write (.done ())

theorem turnless_ite {c : Prop} [Decidable c] {p q : Act α} (yes : Turnless p) (no : Turnless q) :
    Turnless (if c then p else q) := by
  by_cases holds : c
  · rwa [if_pos holds]
  · rwa [if_neg holds]

theorem turnless_deliverAll (deliveries : List Delivery) : Turnless (deliverAll deliveries) :=
  turnless_bind turnless_get fun _ => turnless_ite (.done _) <| turnless_ite (.done _) <|
    .await rfl fun answer => .done answer

theorem turnless_useTurn (change : ViewChange) : Turnless (useTurn change) := by
  refine turnless_bind turnless_get fun m => turnless_bind ?_ fun _ => turnless_modify _
  cases m.proposal change with
  | none => exact .done ()
  | some next =>
    refine turnless_bind (turnless_modify _) fun _ => turnless_bind turnless_get fun n => ?_
    exact turnless_bind (turnless_deliverAll _) fun _ => .done ()

theorem run_turnless {p : Act α} (turnless : Turnless p) (m : Manager) {effect : Effect}
    {next : effect.Answer → Act α} (stops : (p.run m).2 = .waiting effect next) :
    effect.isTurn = false ∧ ∀ answer, Turnless (next answer) := by
  induction turnless generalizing m with
  | done result => simp [Procedure.run] at stops
  | read _ ih => exact ih m m stops
  | write _ ih => exact ih _ stops
  | await other later _ =>
    cases stops
    exact ⟨other, later⟩

end

/-- Where a piece of the actor's work stops. -/
theorem serve_cases (c : Course) (p : Act Unit) :
    (∃ m, p.run c.manager = (m, .done ()) ∧
      serve c p = ⟨({ c with manager := m } : Course).posted m.watch.finish, none⟩) ∨
    ∃ m effect next, p.run c.manager = (m, .waiting effect next) ∧
      serve c p = ⟨{ c with manager := m }, some ⟨effect, next, Course.basisOf c.manager effect⟩⟩ := by
  unfold serve
  rcases p.run c.manager with ⟨m, ⟨⟩ | ⟨effect, next⟩⟩
  · exact Or.inl ⟨m, rfl, rfl⟩
  · exact Or.inr ⟨m, effect, next, rfl, rfl⟩

@[simp] theorem serve_works (c : Course) (p : Act Unit) : (serve c p).course.works = c.works := by
  rcases serve_cases c p with ⟨m, -, same⟩ | ⟨m, effect, next, -, same⟩ <;>
    exact congrArg (·.course.works) same

/-- Besides, the actor is free when its work is over. -/
theorem serve_manager (c : Course) (p : Act Unit) :
    (serve c p).course.manager = (p.run c.manager).1 ∨ (serve c p).course.manager =
      { (p.run c.manager).1 with watch := (p.run c.manager).1.watch.finish } := by
  rcases serve_cases c p with ⟨m, runs, same⟩ | ⟨m, effect, next, runs, same⟩ <;> rw [same, runs]
  · exact Or.inr rfl
  · exact Or.inl rfl

@[simp] theorem serve_made (c : Course) (p : Act Unit) : (serve c p).course.made = c.made := by
  rcases serve_cases c p with ⟨m, -, same⟩ | ⟨m, effect, next, -, same⟩ <;>
    exact congrArg (·.course.made) same

theorem serve_fields (c : Course) (p : Act Unit) :
    (serve c p).course.manager.view = (p.run c.manager).1.view ∧
      (serve c p).course.manager.detector = (p.run c.manager).1.detector ∧
      (serve c p).course.manager.phase = (p.run c.manager).1.phase := by
  rcases serve_manager c p with same | same <;> rw [same] <;> exact ⟨rfl, rfl, rfl⟩

theorem informed_serve {c : Course} {p : Act Unit} (informed : Informed (p.run c.manager).1) :
    Informed (serve c p).course.manager := by
  rcases serve_manager c p with same | same <;> rw [same]
  · exact informed
  · refine informed_of_same informed rfl rfl rfl (finish_serves informed.serves) ?_
    exact congrArg Detector.news (finish_inbox _)

theorem kept_posted {c : Course} (kept : c.Kept) (watch : Actor Detector.Event) :
    (c.posted watch).Kept := Course.kept_grows kept (Alike.grows ⟨rfl, rfl, rfl⟩)

theorem kept_serve {c : Course} (kept : c.Kept) {p : Act Unit}
    (lawful : Lawful c.manager c.manager p) : (serve c p).course.Kept ∧
      ∀ w ∈ (serve c p).duty, w.Pending (serve c p).course.manager.self := by
  have goesOn := Course.kept_piece kept lawful
  rcases serve_cases c p with ⟨m, runs, same⟩ | ⟨m, effect, next, runs, same⟩ <;>
    simp only [Course.piece, runs] at goesOn <;> rw [same]
  · exact ⟨kept_posted goesOn _, by simp⟩
  · refine ⟨⟨goesOn.sound, fun w old => goesOn.pending w (List.mem_append_left _ old), goesOn.proper,
      goesOn.ahead, goesOn.apart⟩, fun w waits => ?_⟩
    exact goesOn.pending w (List.mem_append_right _ (Option.mem_toList.mpr waits))

end Vigil

end Manager

end Cohort
