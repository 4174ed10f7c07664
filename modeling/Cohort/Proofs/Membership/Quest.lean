import Cohort.Membership.Reception
import Cohort.Proofs.Membership.Seeking

/-! The way of a member into a group, and the answers that it takes on it. All its requests have one
mailbox, so an answer that comes late is taken for the answer to a later request. -/

namespace Cohort

namespace Manager

/-- An answer, with the number of the request that it answers. -/
structure Letter where
  answer : JoinAnswer
  asked : Nat
  deriving DecidableEq

/-- An answer that the member acted on, after it made the request of a number and no other yet. -/
structure Deed where
  attempt : Nat
  letter : Letter
  deriving DecidableEq

/-- Where a piece of the seeking stopped to wait. -/
structure Halt where
  effect : Effect
  next : effect.Answer → Act Found

/-- What was found in the end, and the member before and after it settled on that. -/
structure Ending where
  found : Found
  before : Manager
  after : Manager

/-- A member on its way into a group. -/
structure Quest where
  manager : Manager
  halt : Option Halt := none
  ending : Option Ending := none
  /-- The addresses that were asked for admission; a request has its place here as its number. -/
  asked : List Net.Endpoint := []
  /-- What is in the mailbox. -/
  unread : List Letter := []
  deeds : List Deed := []
  /-- The requests that were answered, in the order of the answers. -/
  answered : List Nat := []

/-- The locators that the member asks. -/
def others (m : Manager) : List Net.Endpoint :=
  m.config.locators.filter fun address => m.channel ≠ some address

/-- The member is in a group: the one that let it in, or else its own. -/
def grouped (view : Option View) (m : Manager) : Manager :=
  let m := m.adopt (view.getD (View.initial m.self))
  if m.phase == .joining then { m with phase := .running } else m

/-- What a member does with what it found. -/
def settle : Found → Act (Except ServiceError Unit)
  | .error e => return .error e
  | .ok view => do
    modify fun m => { m with expectsAnswer := false, answers := [] }
    modify (grouped view)
    return .ok ()

/-- The address that a delivery asks for admission. -/
def request? : Delivery → Option Net.Endpoint
  | ⟨.address target, message⟩ =>
    match message.payload with
    | .joinRequest _ => some target
    | _ => none
  | _ => none

def requests : Effect → List Net.Endpoint
  | .deliver deliveries => deliveries.filterMap request?
  | _ => []

namespace Quest

/-- What may happen next. -/
inductive Move where
  /-- The deliveries that the member waits for are over. -/
  | delivered (results : List (Except ServiceError Unit))
  /-- Somebody who was asked answers, once and at any time after that. -/
  | arrive (letter : Letter)
  /-- The member looks for an answer. -/
  | look (late : Bool)
  /-- Anything else that it does or that is done to it, which leaves the letters alone but may close the
  mailbox. -/
  | elsewhere (other : Manager) (closes : Bool)

/-- One piece of the seeking runs. -/
def piece (q : Quest) (p : Act Found) : Quest :=
  match p.run q.manager with
  | (m, .done found) =>
    let after := ((settle found).run m).1
    { q with manager := after, halt := none, ending := some ⟨found, m, after⟩ }
  | (m, .waiting effect next) =>
    { q with manager := m, halt := some ⟨effect, next⟩, asked := q.asked ++ requests effect }

/-- A member begins to get into a group. -/
def begun (m : Manager) : Quest :=
  if (others m).isEmpty then
    { manager := grouped none m, ending := some ⟨.ok none, m, grouped none m⟩ }
  else ({ manager := { m with expectsAnswer := true, answers := [] } } : Quest).piece
    (joinThroughEach (others m))

/-- What is left of getting into a group. -/
def left (q : Quest) : Procedure.Stop Manager (Except ServiceError Unit) :=
  match q.halt with
  | some ⟨effect, next⟩ => .waiting effect fun answer => (next answer).bind settle
  | none => .done (match q.ending with
    | some e => e.found.map fun _ => ()
    | none => .ok ())

/-- The letter on top of the mailbox is acted on. -/
def opened (q : Quest) : Quest :=
  match q.unread with
  | [] => q
  | letter :: rest =>
    { q with unread := rest, deeds := q.deeds ++ [⟨q.asked.length - 1, letter⟩] }

def move (q : Quest) : Move → Quest
  | .delivered results =>
    match q.halt with
    | some ⟨.deliver _, next⟩ => q.piece (next results)
    | _ => q
  | .arrive letter =>
    if letter.asked < q.asked.length ∧ letter.asked ∉ q.answered then
      { q with
        manager := q.manager.takeJoinAnswer letter.answer
        unread := if q.manager.expectsAnswer then q.unread ++ [letter] else q.unread
        answered := q.answered ++ [letter.asked] }
    else q
  | .look late =>
    match q.halt with
    | some ⟨.joinAnswer _, next⟩ =>
      match q.manager.hearAnswer late with
      | (_, none) => q
      | (m, some outcome) => ({ q.opened with manager := m } : Quest).piece (next outcome)
    | _ => q
  | .elsewhere other closes =>
    { q with manager := { other with
        answers := q.manager.answers
        expectsAnswer := q.manager.expectsAnswer && !closes } }

def after (q : Quest) : List Move → Quest
  | [] => q
  | x :: rest => (q.move x).after rest

/-! ### What a member does to get into a group -/

theorem run_settle (found : Found) (m : Manager) :
    (settle found).run m = (((settle found).run m).1, .done (found.map fun _ => ())) := by
  cases found <;> rfl

/-- A piece of the seeking is a piece of the whole work. -/
theorem run_piece (q : Quest) (p : Act Found) :
    (p.bind settle).run q.manager = ((q.piece p).manager, (q.piece p).left) := by
  rw [Procedure.run_bind]
  unfold piece
  cases p.run q.manager with
  | mk m stop =>
    cases stop with
    | done found => exact run_settle found m
    | waiting effect next => rfl

/-- Without others to ask a member founds a group right away, else it settles on what a search finds. -/
theorem enterGroup_eq : enterGroup = .read fun m =>
    if (others m).isEmpty then modify (grouped none) >>= fun _ => pure (.ok ())
    else .write { m with expectsAnswer := true, answers := [] }
      ((joinThroughEach (others m)).bind settle) := by
  change Procedure.read (fun m => Procedure.bind (ite ((others m).isEmpty = true) _ _) _) = _
  congr 1
  funext m
  by_cases alone : (others m).isEmpty = true
  · rw [if_pos alone, if_pos alone]
    rfl
  · rw [if_neg alone, if_neg alone]
    change Procedure.write _ (((joinThroughEach (others m)).bind _).bind _) = _
    rw [Procedure.bind_assoc]
    congr 2
    funext found
    cases found <;> rfl

theorem run_enterGroup (m : Manager) : enterGroup.run m = ((begun m).manager, (begun m).left) := by
  rw [enterGroup_eq]
  unfold begun
  by_cases alone : (others m).isEmpty = true
  · simp only [Procedure.run, if_pos alone]
    rfl
  · simp only [Procedure.run, if_neg alone]
    exact run_piece { manager := { m with expectsAnswer := true, answers := [] } } _

/-! ### Founding a group -/

/-- The view that a founder has afterwards: its own, or the one that it had if that is no older. -/
def foundedOver (self : Member) : Option View → Option View
  | some current =>
    if (View.initial self).id ≤ current.id then some current else some (View.initial self)
  | none => some (View.initial self)

theorem adopt_initial (m : Manager) :
    (m.adopt (View.initial m.self)).view = foundedOver m.self m.view := by
  have present : (View.initial m.self).contains m.self = true :=
    (Member.isIn_iff _ _).mpr ⟨_, List.mem_singleton_self _, Member.same_refl _⟩
  unfold adopt
  cases known : m.view with
  | none =>
    dsimp only
    rw [if_pos present]
    exact (installed_fields _ _ _).1
  | some current =>
    simp only [foundedOver, if_pos present]
    split
    · exact known
    · exact (installed_fields _ _ _).1

theorem grouped_none (m : Manager) : (grouped none m).view = foundedOver m.self m.view := by
  rw [← adopt_initial]
  unfold grouped
  dsimp only [Option.getD]
  split <;> rfl

/-! ### The letters -/

/-- All letters that came into the mailbox. -/
def letters (q : Quest) : List Letter := q.deeds.map (·.letter) ++ q.unread

/-- The member was let in by somebody whom it asked. -/
def Admitted (q : Quest) : Prop := ∃ deed ∈ q.deeds, ∃ view, deed.letter.answer = .accepted view

/-- What holds of all letters and deeds. -/
structure Regular (q : Quest) : Prop where
  later : q.deeds.Pairwise fun a b => a.attempt < b.attempt
  made : ∀ deed ∈ q.deeds, deed.letter.asked ≤ deed.attempt ∧ deed.attempt < q.asked.length
  known : ∀ letter ∈ q.letters, letter.asked < q.asked.length ∧ letter.asked ∈ q.answered
  once : (q.letters.map (·.asked)).Nodup

/-- How a member that is at a stage stands with its letters. -/
structure Stands (stage : Stage) (q : Quest) : Prop where
  mailbox : q.manager.answers = q.unread.map (·.answer)
  ahead : stage = .asked → ∀ deed ∈ q.deeds, deed.attempt + 1 < q.asked.length
  admitted : q.Admitted ↔ ∃ view, stage = .admitted view

/-- What a member waits for, having asked. -/
def Waits (halt : Halt) : Prop :=
  (∃ deliveries next, halt = ⟨.deliver deliveries, next⟩ ∧ ∀ results n, Seeks .asked n (next results)) ∨
    ∃ patience next, halt = ⟨.joinAnswer patience, next⟩ ∧
      ∀ outcome n, Seeks (.after outcome) n (next outcome)

/-- A member found a view if it was admitted, and else founds a group. -/
structure Concludes (q : Quest) (e : Ending) : Prop where
  admitted : q.Admitted ↔ ∃ view, e.found = .ok (some view)
  founded : e.found = .ok none → e.after.view = foundedOver e.before.self e.before.view

/-- How far a member is. -/
inductive Goes (q : Quest) : Prop where
  | waits {halt : Halt} : q.halt = some halt → q.ending = none → Stands .asked q → Waits halt → Goes q
  | ended {e : Ending} : q.halt = none → q.ending = some e → Concludes q e → Goes q

/-- What every move keeps. -/
structure Kept (q : Quest) : Prop where
  regular : q.Regular
  goes : q.Goes

section
variable {q : Quest} {stage : Stage}

theorem stage_ends_iff {found : Found} (ends : stage.Ends found) :
    (∃ view, stage = .admitted view) ↔ ∃ view, found = .ok (some view) := by
  cases stage with
  | admitted view => exact ⟨fun _ => ⟨view, ends⟩, fun _ => ⟨view, rfl⟩⟩
  | free | asked => exact ⟨by simp, fun ⟨view, same⟩ => absurd same (ends view)⟩

/-- More requests, with the same answers. -/
theorem Regular.onward {r : Quest} (regular : q.Regular) (deeds : r.deeds = q.deeds)
    (unread : r.unread = q.unread) (answered : r.answered = q.answered)
    (longer : q.asked.length ≤ r.asked.length) : r.Regular := by
  have letters : r.letters = q.letters := by rw [Quest.letters, Quest.letters, deeds, unread]
  refine ⟨by rw [deeds]; exact regular.later, fun deed member => ?_, fun letter member => ?_,
    by rw [letters]; exact regular.once⟩
  · obtain ⟨own, before⟩ := regular.made deed (deeds ▸ member)
    exact ⟨own, Nat.lt_of_lt_of_le before longer⟩
  · obtain ⟨before, answers⟩ := regular.known letter (letters ▸ member)
    exact ⟨Nat.lt_of_lt_of_le before longer, answered ▸ answers⟩

/-- A piece that has come to a request, to looking for its answer or to the end. -/
theorem kept_piece {p : Act Found} (regular : q.Regular) (none : q.ending = none)
    (stands : Stands stage q) (seeks : Seeks stage q.manager p) : (q.piece p).Kept := by
  obtain ⟨same, stops⟩ := run_seeks seeks
  have pair : p.run q.manager = (q.manager, (p.run q.manager).2) := Prod.ext same rfl
  unfold piece
  rw [pair]
  rcases stops with ⟨found, stop, ends⟩ | ⟨seeking, target, self, next, stop, goesOn⟩ |
    ⟨rfl, patience, next, stop, goesOn⟩
  · rw [stop]
    refine ⟨regular.onward rfl rfl rfl (Nat.le_refl _), .ended rfl rfl ⟨?_, ?_⟩⟩
    · exact stands.admitted.trans (stage_ends_iff ends)
    · rintro rfl
      exact grouped_none { q.manager with expectsAnswer := false, answers := [] }
  · rw [stop]
    have longer : (q.asked ++ [target]).length = q.asked.length + 1 := List.length_append
    refine ⟨regular.onward rfl rfl rfl (Nat.le_trans (Nat.le_succ _) (Nat.le_of_eq longer.symm)), ?_⟩
    refine .waits rfl none ⟨stands.mailbox, fun _ deed member => ?_, ?_⟩ (Or.inl ⟨_, next, rfl, goesOn⟩)
    · exact Nat.lt_of_lt_of_eq (Nat.succ_lt_succ (regular.made deed member).2) longer.symm
    · exact stands.admitted.trans ⟨fun ⟨view, same⟩ => absurd same (seeking view), by simp⟩
  · rw [stop]
    have longer : (q.asked ++ requests (.joinAnswer patience)).length = q.asked.length :=
      congrArg List.length (List.append_nil _)
    refine ⟨regular.onward rfl rfl rfl (Nat.le_of_eq longer.symm), ?_⟩
    refine .waits rfl none ⟨stands.mailbox, fun asked deed member => ?_, stands.admitted⟩
      (Or.inr ⟨patience, next, rfl, goesOn⟩)
    exact Nat.lt_of_lt_of_eq (stands.ahead asked deed member) longer.symm

theorem regular_empty (unread : q.unread = []) (deeds : q.deeds = []) : q.Regular := by
  have letters : q.letters = [] := by rw [Quest.letters, deeds, unread]; rfl
  constructor <;> simp [deeds, letters]

theorem kept_begun (m : Manager) : (begun m).Kept := by
  have outside : ∀ {q : Quest}, q.deeds = [] → (q.Admitted ↔ False) := fun deeds => by
    simp [Admitted, deeds]
  unfold begun
  split
  · exact ⟨regular_empty rfl rfl, .ended rfl rfl ⟨(outside rfl).trans (by simp), fun _ => grouped_none m⟩⟩
  · have stands : Stands .free { manager := { m with expectsAnswer := true, answers := [] } } :=
      ⟨rfl, by simp, (outside rfl).trans (by simp)⟩
    exact kept_piece (regular_empty rfl rfl) rfl stands (seeks_joinThroughEach _ (by simp))

/-! ### The mailbox -/

theorem hearAnswer_some {m n : Manager} {late : Bool} {outcome : JoinOutcome}
    (hears : m.hearAnswer late = (n, some outcome)) :
    (∃ answer rest, m.answers = answer :: rest ∧ n.answers = rest ∧ outcome = .answered answer) ∨
      m.answers = [] ∧ n = m ∧ Stage.after outcome = .free := by
  unfold hearAnswer at hears
  split at hears
  · rename_i answer rest first
    obtain ⟨rfl, same⟩ := Prod.mk.inj hears
    exact Or.inl ⟨answer, rest, first, rfl, (Option.some.inj same).symm⟩
  · rename_i nothing
    obtain ⟨rfl, same⟩ := Prod.mk.inj hears
    refine Or.inr ⟨nothing, rfl, ?_⟩
    split at same
    · exact Option.some.inj same ▸ rfl
    · split at same
      · exact Option.some.inj same ▸ rfl
      · contradiction

/-- The letter on top is acted on as an answer to the last request. -/
theorem regular_opened (regular : q.Regular) (stands : Stands .asked q) : q.opened.Regular := by
  unfold opened
  cases box : q.unread with
  | nil => exact regular
  | cons letter rest =>
    have all : ({ q with unread := rest, deeds := q.deeds ++ [⟨q.asked.length - 1, letter⟩] } :
        Quest).letters = q.letters := by
      simp [Quest.letters, box]
    have here : letter.asked < q.asked.length :=
      (regular.known letter (List.mem_append_right _ (box ▸ List.mem_cons_self ..))).1
    refine ⟨List.pairwise_append.mpr ⟨regular.later, List.pairwise_singleton _ _, ?_⟩, ?_,
      all ▸ regular.known, all ▸ regular.once⟩
    · rintro deed member _ last
      rw [List.mem_singleton.mp last]
      exact Nat.lt_sub_of_add_lt (stands.ahead rfl deed member)
    · intro deed member
      rcases List.mem_append.mp member with old | new
      · exact regular.made deed old
      · rw [List.mem_singleton.mp new]
        exact ⟨Nat.le_sub_one_of_lt here, Nat.sub_one_lt_of_lt here⟩

theorem after_answered (answer : JoinAnswer) (view : View) :
    Stage.after (.answered answer) = .admitted view ↔ answer = .accepted view := by
  cases answer <;> simp [Stage.after]

theorem after_not_asked (outcome : JoinOutcome) : Stage.after outcome ≠ .asked := by
  cases outcome with
  | answered answer => cases answer <;> simp [Stage.after]
  | silence | closed => simp [Stage.after]

theorem stands_opened {m : Manager} {late : Bool} {outcome : JoinOutcome} (stands : Stands .asked q)
    (hears : q.manager.hearAnswer late = (m, some outcome)) :
    Stands (.after outcome) { q.opened with manager := m } := by
  have outside : ¬ q.Admitted := by simp [stands.admitted]
  rcases hearAnswer_some hears with ⟨answer, rest, first, remains, rfl⟩ | ⟨nothing, rfl, free⟩
  · rw [stands.mailbox] at first
    obtain ⟨letter, more, box, rfl, rfl⟩ := List.map_eq_cons_iff.mp first
    have opens : q.opened =
        { q with unread := more, deeds := q.deeds ++ [⟨q.asked.length - 1, letter⟩] } := by
      rw [opened, box]
    rw [opens]
    refine ⟨remains, fun asked => absurd asked (after_not_asked _), ?_⟩
    simp only [after_answered]
    refine ⟨fun ⟨deed, member, accepts⟩ => ?_, fun accepts => ?_⟩
    · rcases List.mem_append.mp member with old | new
      · exact absurd ⟨deed, old, accepts⟩ outside
      · rwa [List.mem_singleton.mp new] at accepts
    · exact ⟨_, List.mem_append_right _ (List.mem_singleton_self _), accepts⟩
  · have same : q.opened = q := by
      rw [opened, List.map_eq_nil_iff.mp (stands.mailbox.symm.trans nothing)]
    rw [same, free]
    exact ⟨stands.mailbox, by simp, by simp [outside]⟩

/-! ### What every move keeps -/

/-- Nothing but the mailbox has changed. -/
theorem Goes.onward {r : Quest} (goes : q.Goes) (halt : r.halt = q.halt) (ending : r.ending = q.ending)
    (deeds : r.deeds = q.deeds) (asked : r.asked = q.asked)
    (mailbox : q.manager.answers = q.unread.map (·.answer) →
      r.manager.answers = r.unread.map (·.answer)) : r.Goes := by
  have admitted : r.Admitted ↔ q.Admitted := by rw [Admitted, Admitted, deeds]
  cases goes with
  | waits halts none stands waits =>
    refine .waits (halt.trans halts) (ending.trans none) ⟨mailbox stands.mailbox, ?_, ?_⟩ waits
    · rw [deeds, asked]
      exact stands.ahead
    · exact admitted.trans stands.admitted
  | ended halts ends concludes =>
    exact .ended (halt.trans halts) (ending.trans ends)
      ⟨admitted.trans concludes.admitted, concludes.founded⟩

theorem takeJoinAnswer_answers (m : Manager) (answer : JoinAnswer) : (m.takeJoinAnswer answer).answers =
    if m.expectsAnswer then m.answers ++ [answer] else m.answers := by
  unfold takeJoinAnswer
  split <;> rfl

/-- A letter is put into the mailbox, or thrown away if there is none. -/
theorem regular_arrive (regular : q.Regular) {letter : Letter} (before : letter.asked < q.asked.length)
    (new : letter.asked ∉ q.answered) (m : Manager) (keeps : Bool) : ({ q with
      manager := m
      unread := if keeps then q.unread ++ [letter] else q.unread
      answered := q.answered ++ [letter.asked] } : Quest).Regular := by
  have known : ∀ x ∈ q.letters, x.asked < q.asked.length ∧ x.asked ∈ q.answered ++ [letter.asked] :=
    fun x member => (regular.known x member).imp_right (List.mem_append_left _)
  cases keeps with
  | false => exact ⟨regular.later, regular.made, known, regular.once⟩
  | true =>
    have all : (q.deeds.map (·.letter)) ++ (q.unread ++ [letter]) = q.letters ++ [letter] :=
      (List.append_assoc ..).symm
    refine ⟨regular.later, regular.made, ?_, ?_⟩
    · change ∀ x ∈ (q.deeds.map (·.letter)) ++ (q.unread ++ [letter]), _
      rw [all]
      intro x member
      rcases List.mem_append.mp member with old | last
      · exact known x old
      · rw [List.mem_singleton.mp last]
        exact ⟨before, List.mem_append_right _ (List.mem_singleton_self _)⟩
    · change (((q.deeds.map (·.letter)) ++ (q.unread ++ [letter])).map _).Nodup
      rw [all, List.map_append]
      refine List.nodup_append.mpr ⟨regular.once, by simp, ?_⟩
      rintro n old _ last rfl
      obtain ⟨x, member, rfl⟩ := List.mem_map.mp old
      rw [List.map_singleton] at last
      exact new (List.mem_singleton.mp last ▸ (regular.known x member).2)

theorem kept_arrive (kept : q.Kept) (letter : Letter) : (q.move (.arrive letter)).Kept := by
  dsimp only [move]
  split
  · rename_i proper
    refine ⟨regular_arrive kept.regular proper.1 proper.2 _ _, ?_⟩
    refine kept.goes.onward rfl rfl rfl rfl fun mailbox => ?_
    rw [takeJoinAnswer_answers, mailbox]
    split <;> simp
  · exact kept

theorem kept_delivered (kept : q.Kept) (results : List (Except ServiceError Unit)) :
    (q.move (.delivered results)).Kept := by
  cases kept.goes with
  | ended halts _ _ => simpa only [move, halts] using kept
  | waits halts none stands waits =>
    rcases waits with ⟨deliveries, next, rfl, goesOn⟩ | ⟨patience, next, rfl, -⟩
    · simp only [move, halts]
      exact kept_piece kept.regular none stands (goesOn results _)
    · simpa only [move, halts] using kept

theorem kept_look (kept : q.Kept) (late : Bool) : (q.move (.look late)).Kept := by
  cases kept.goes with
  | ended halts _ _ => simpa only [move, halts] using kept
  | waits halts none stands waits =>
    rcases waits with ⟨deliveries, next, rfl, -⟩ | ⟨patience, next, rfl, goesOn⟩
    · simpa only [move, halts] using kept
    · simp only [move, halts]
      split
      · exact kept
      · rename_i m outcome hears
        have opened : ({ q.opened with manager := m } : Quest).Regular :=
          (regular_opened kept.regular stands).onward rfl rfl rfl (Nat.le_refl _)
        have unsettled : q.opened.ending = Option.none := by
          unfold Quest.opened
          split <;> exact none
        exact kept_piece opened unsettled (stands_opened stands hears) (goesOn outcome m)

theorem kept_move (kept : q.Kept) (x : Move) : (q.move x).Kept := by
  cases x with
  | delivered results => exact kept_delivered kept results
  | arrive letter => exact kept_arrive kept letter
  | look late => exact kept_look kept late
  | elsewhere other closes =>
    refine ⟨kept.regular.onward rfl rfl rfl (Nat.le_refl _), ?_⟩
    exact kept.goes.onward rfl rfl rfl rfl fun mailbox => mailbox

theorem kept_after (kept : q.Kept) (moves : List Move) : (q.after moves).Kept := by
  induction moves generalizing q with
  | nil => exact kept
  | cons x rest ih => exact ih (kept_move kept x)

end

end Quest

end Manager

end Cohort
