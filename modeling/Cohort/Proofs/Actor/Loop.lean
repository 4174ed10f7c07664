import Mathlib.Data.List.Infix
import Cohort.Actor.Basic

/-! The loop of an actor. Commands come from any number of senders and are handled one at a time, in
the order in which they were sent. An actor that is asked to stop begins nothing more; without that
a plain one stops when nobody is left to send to it and every command is handled, and a recurrent
one goes on ticking. -/

namespace Cohort.Actor

variable {α : Type}

/-! ### Turns -/

/-- What an actor can do when it is its turn, and when it does that. -/
inductive Outcome (a : Actor α) (now : Nat) : Actor α × Option (Turn α) → Prop
  | engaged (engaged : a.phase ≠ .idle) : Outcome a now (a, none)
  | obeys (idle : a.phase = .idle) (asked : a.stopRequested = true) : Outcome a now (a.stopped, none)
  | handles (idle : a.phase = .idle) (unasked : a.stopRequested = false) {command : α} {rest : List α}
      (queued : a.inbox = command :: rest) :
      Outcome a now ({ a with inbox := rest, phase := .busy }, some (.command command))
  | leaves (idle : a.phase = .idle) (handled : a.inbox = []) (closed : a.reachable = false)
      (plain : a.ticker = none) : Outcome a now (a.stopped, none)
  | ticks (idle : a.phase = .idle) (unasked : a.stopRequested = false) {t : Ticker}
      (recurrent : a.ticker = some t) (due : t.due ≤ now) :
      Outcome a now ({ a with ticker := some (t.next now), phase := .busy }, some .tick)
  | waits (idle : a.phase = .idle) (unasked : a.stopRequested = false)
      (going : a.reachable = true ∨ a.ticker ≠ none) (early : ∀ t, a.ticker = some t → now < t.due) :
      Outcome a now (a, none)

theorem turn_outcome (a : Actor α) (now : Nat) : Outcome a now (a.turn now) := by
  unfold turn
  split
  case isTrue engaged => exact .engaged engaged
  case isFalse idle =>
  have idle : a.phase = .idle := Decidable.not_not.mp idle
  split
  case isTrue asked => exact .obeys idle asked
  case isFalse unasked =>
  have unasked : a.stopRequested = false := Bool.eq_false_iff.mpr unasked
  split
  case h_1 command rest queued => exact .handles idle unasked queued
  case h_2 handled =>
  split
  case isTrue done =>
    simp only [Bool.and_eq_true, Bool.not_eq_true', Option.isNone_iff_eq_none] at done
    exact .leaves idle handled done.1 done.2
  case isFalse going =>
  unfold tickTurn
  split
  case h_1 t recurrent =>
    split
    case isTrue due => exact .ticks idle unasked recurrent due
    case isFalse early =>
      refine .waits idle unasked (.inr (by simp [recurrent])) fun t' same => ?_
      rw [recurrent] at same
      cases same
      exact Nat.lt_of_not_le early
  case h_2 plain =>
    refine .waits idle unasked (.inl ?_) fun t recurrent => ?_
    · simpa [plain] using going
    · simp [plain] at recurrent

/-- The commands among these turns. -/
def commands (turns : List (Turn α)) : List α :=
  turns.filterMap fun
    | .command command => some command
    | .tick => none

@[simp] theorem commands_append_command (turns : List (Turn α)) (command : α) :
    commands (turns ++ [.command command]) = commands turns ++ [command] :=
  List.filterMap_append

@[simp] theorem commands_append_tick (turns : List (Turn α)) :
    commands (turns ++ [.tick]) = commands turns := by
  rw [commands, List.filterMap_append]
  exact List.append_nil _

/-- How many of these turns are ticks. -/
def ticks (turns : List (Turn α)) : Nat :=
  turns.countP fun
    | .command _ => false
    | .tick => true

@[simp] theorem ticks_append_command (turns : List (Turn α)) (command : α) :
    ticks (turns ++ [.command command]) = ticks turns :=
  List.countP_append

@[simp] theorem ticks_append_tick (turns : List (Turn α)) : ticks (turns ++ [.tick]) = ticks turns + 1 :=
  List.countP_append

theorem length_turns (turns : List (Turn α)) : turns.length = (commands turns).length + ticks turns := by
  induction turns with
  | nil => rfl
  | cons turn turns ih =>
    cases turn with
    | command command =>
      change turns.length + 1 = (commands turns).length + 1 + ticks turns
      omega
    | tick =>
      have one : ticks (.tick :: turns) = ticks turns + 1 := List.countP_cons_of_pos rfl
      change turns.length + 1 = (commands turns).length + ticks (.tick :: turns)
      omega

/-! ### Lives -/

/-- What happens around an actor and in it. -/
inductive Event (α : Type) where
  /-- A command is sent through one of the senders. -/
  | send (command : α)
  | cloneSender
  | dropSender
  /-- Somebody asks the actor to stop, or nobody is left who could. -/
  | stop
  /-- It is the actor's turn. -/
  | turn (now : Nat)
  /-- The handler returns. -/
  | finish
  deriving DecidableEq, Repr

/-- An actor, and what has come of it since it was started. -/
structure Life (α : Type) where
  actor : Actor α
  senders : Nat := 1
  /-- The commands that were taken, in the order in which they were sent. -/
  sent : List α := []
  /-- For what its handler was started, in this order. -/
  begun : List (Turn α) := []
  /-- How often the handler has returned. -/
  ended : Nat := 0
  deriving DecidableEq, Repr

namespace Life

def start (ticker : Option Ticker) : Life α where
  actor := { ticker }

def step (l : Life α) : Event α → Life α
  | .send command =>
    if l.senders = 0 then l
    else
      let (actor, taken) := l.actor.send command
      { l with actor, sent := if taken then l.sent ++ [command] else l.sent }
  | .cloneSender => if l.senders = 0 then l else { l with senders := l.senders + 1 }
  | .dropSender =>
    match l.senders with
    | 0 => l
    | 1 => { l with senders := 0, actor := l.actor.abandon }
    | n + 2 => { l with senders := n + 1 }
  | .stop => { l with actor := l.actor.requestStop }
  | .turn now =>
    let (actor, found) := l.actor.turn now
    { l with actor, begun := l.begun ++ found.toList }
  | .finish =>
    { l with actor := l.actor.finish, ended := if l.actor.phase = .busy then l.ended + 1 else l.ended }

def after (l : Life α) (events : List (Event α)) : Life α := events.foldl step l

theorem after_append (l : Life α) (first second : List (Event α)) :
    l.after (first ++ second) = (l.after first).after second :=
  List.foldl_append

/-- A turn comes to one of its outcomes. -/
@[elab_as_elim]
theorem step_turn {motive : Life α → Prop} (l : Life α) (now : Nat)
    (outcomes : ∀ a found, Outcome l.actor now (a, found) →
      motive { l with actor := a, begun := l.begun ++ found.toList }) :
    motive (l.step (.turn now)) :=
  outcomes _ _ (turn_outcome l.actor now)

/-- The commands for which the handler was started. -/
def handled (l : Life α) : List α := commands l.begun

/-- Of a life so far: whether anybody can send is told by the number of senders; no command is lost
as long as the actor has not stopped, and none overtakes another; the handler runs once at a time;
and an actor stops because it was asked to, or because it is a plain one to which nobody sends any
more, with all handled. -/
structure Orderly (l : Life α) : Prop where
  closed : l.actor.reachable = false ↔ l.senders = 0
  kept : l.actor.phase ≠ .stopped → l.handled ++ l.actor.inbox = l.sent
  first : l.handled <+: l.sent
  timed : l.actor.ticker = none → ticks l.begun = 0
  single : l.begun.length = l.ended + if l.actor.phase = .busy then 1 else 0
  reason : l.actor.phase = .stopped → l.actor.stopRequested = true ∨
    l.actor.ticker = none ∧ l.actor.reachable = false ∧ l.handled = l.sent

theorem orderly_start (ticker : Option Ticker) : (start ticker : Life α).Orderly where
  closed := by simp [start]
  kept _ := rfl
  first := List.nil_prefix
  timed _ := rfl
  single := rfl
  reason stopped := nomatch stopped

theorem orderly_turn {l : Life α} (orderly : l.Orderly) (now : Nat) : (l.step (.turn now)).Orderly := by
  obtain ⟨closed, kept, first, timed, single, reason⟩ := orderly
  refine step_turn l now fun a found outcome => ?_
  cases outcome with
  | engaged | waits =>
    rw [Option.toList_none, List.append_nil]
    exact ⟨closed, kept, first, timed, single, reason⟩
  | obeys idle asked =>
    rw [Option.toList_none, List.append_nil]
    refine ⟨closed, fun going => absurd rfl going, first, timed, ?_, fun _ => .inl asked⟩
    simpa [idle, stopped] using single
  | handles idle unasked queued =>
    have kept := kept (by simp [idle])
    rw [queued, List.append_cons] at kept
    refine ⟨closed, fun _ => ?_, ?_, fun plain => ?_, ?_, fun stopped => nomatch stopped⟩
    · simpa [handled] using kept
    · simp [handled, ← kept]
    · simpa using timed plain
    · simp [single, idle]
  | leaves idle empty unreachable plain =>
    rw [Option.toList_none, List.append_nil]
    have kept := kept (by simp [idle])
    rw [empty, List.append_nil] at kept
    refine ⟨closed, fun going => absurd rfl going, first, timed, ?_,
      fun _ => .inr ⟨plain, unreachable, kept⟩⟩
    simpa [idle, stopped] using single
  | ticks idle unasked recurrent due =>
    have kept := kept (by simp [idle])
    refine ⟨closed, fun _ => ?_, ?_, (fun plain => nomatch plain), ?_, fun stopped => nomatch stopped⟩
    · simpa [handled] using kept
    · simpa [handled] using first
    · simp [single, idle]

theorem orderly_step {l : Life α} (orderly : l.Orderly) (event : Event α) : (l.step event).Orderly := by
  cases event with
  | turn now => exact orderly_turn orderly now
  | send command =>
    obtain ⟨closed, kept, first, timed, single, reason⟩ := orderly
    simp only [step, Actor.send]
    split
    · exact ⟨closed, kept, first, timed, single, reason⟩
    · by_cases stopped : l.actor.phase = .stopped
      · simp only [if_pos stopped]
        exact ⟨closed, kept, first, timed, single, reason⟩
      · simp only [if_neg stopped]
        refine ⟨closed, fun _ => ?_, first.trans (List.prefix_append _ _), timed, single,
          fun ended => absurd ended stopped⟩
        simp [handled, ← kept stopped]
  | cloneSender =>
    obtain ⟨closed, kept, first, timed, single, reason⟩ := orderly
    simp only [step]
    split
    · exact ⟨closed, kept, first, timed, single, reason⟩
    case isFalse left =>
      have reachable : l.actor.reachable ≠ false := mt closed.mp left
      exact ⟨iff_of_false reachable (Nat.succ_ne_zero _), kept, first, timed, single, reason⟩
  | dropSender =>
    obtain ⟨closed, kept, first, timed, single, reason⟩ := orderly
    simp only [step]
    split
    · exact ⟨closed, kept, first, timed, single, reason⟩
    · exact ⟨iff_of_true rfl rfl, kept, first, timed, single, fun stopped =>
        (reason stopped).imp_right fun ⟨plain, _, all⟩ => ⟨plain, rfl, all⟩⟩
    case h_3 left =>
      have reachable : l.actor.reachable ≠ false := mt closed.mp (left ▸ Nat.succ_ne_zero _)
      exact ⟨iff_of_false reachable (Nat.succ_ne_zero _), kept, first, timed, single, reason⟩
  | stop =>
    exact ⟨orderly.closed, orderly.kept, orderly.first, orderly.timed, orderly.single, fun _ => .inl rfl⟩
  | finish =>
    obtain ⟨closed, kept, first, timed, single, reason⟩ := orderly
    by_cases busy : l.actor.phase = .busy
    · simp only [step, Actor.finish, if_pos busy]
      refine ⟨closed, fun _ => kept (by simp [busy]), first, timed, ?_, fun stopped => nomatch stopped⟩
      simpa [busy] using single
    · simp only [step, Actor.finish, if_neg busy]
      exact ⟨closed, kept, first, timed, single, reason⟩

theorem orderly_after {l : Life α} (orderly : l.Orderly) (events : List (Event α)) :
    (l.after events).Orderly := by
  induction events generalizing l with
  | nil => exact orderly
  | cons event events ih => exact ih (orderly_step orderly event)

/-- What nothing changes but a turn of the actor. Without one an actor does not become busy either. -/
structure Beside (l l' : Life α) : Prop where
  begun : l'.begun = l.begun
  ticker : l'.actor.ticker = l.actor.ticker
  asked : l.actor.stopRequested = true → l'.actor.stopRequested = true
  stopped : l'.actor.phase = .stopped ↔ l.actor.phase = .stopped
  busy : l'.actor.phase = .busy → l.actor.phase = .busy

theorem beside_step (l : Life α) {event : Event α} (other : ∀ now, event ≠ .turn now) :
    Beside l (l.step event) := by
  have same : Beside l l := ⟨rfl, rfl, id, Iff.rfl, id⟩
  cases event with
  | turn now => exact absurd rfl (other now)
  | send command =>
    simp only [step, Actor.send]
    split
    · exact same
    · by_cases stopped : l.actor.phase = .stopped
      · simp only [if_pos stopped]
        exact ⟨rfl, rfl, id, Iff.rfl, id⟩
      · simp only [if_neg stopped]
        exact ⟨rfl, rfl, id, Iff.rfl, id⟩
  | cloneSender =>
    simp only [step]
    split <;> exact ⟨rfl, rfl, id, Iff.rfl, id⟩
  | dropSender =>
    simp only [step]
    split <;> exact ⟨rfl, rfl, id, Iff.rfl, id⟩
  | stop => exact ⟨rfl, rfl, fun _ => rfl, Iff.rfl, id⟩
  | finish =>
    by_cases busy : l.actor.phase = .busy
    · simp only [step, Actor.finish, if_pos busy]
      exact ⟨rfl, rfl, id, by simp [busy], fun idle => nomatch idle⟩
    · simp only [step, Actor.finish, if_neg busy]
      exact ⟨rfl, rfl, id, Iff.rfl, id⟩

/-- An event is a turn, with one of its outcomes, or goes on beside the turns. -/
@[elab_as_elim]
theorem step_cases {motive : Life α → Prop} (l : Life α) (event : Event α)
    (turn : ∀ now a found, event = .turn now → Outcome l.actor now (a, found) →
      motive { l with actor := a, begun := l.begun ++ found.toList })
    (beside : ∀ l', Beside l l' → motive l') : motive (l.step event) := by
  by_cases own : ∃ now, event = .turn now
  · obtain ⟨now, rfl⟩ := own
    exact turn now _ _ rfl (turn_outcome l.actor now)
  · exact beside _ (beside_step l (not_exists.mp own))

/-- The actor was asked to stop, or has stopped. -/
def Over (l : Life α) : Prop := l.actor.stopRequested = true ∨ l.actor.phase = .stopped

theorem over_step {l : Life α} (past : l.Over) (event : Event α) :
    (l.step event).Over ∧ (l.step event).begun = l.begun := by
  refine step_cases l event (fun now a found _ outcome => ?_) fun l' beside => ?_
  · have asked (idle : l.actor.phase = .idle) : l.actor.stopRequested = true :=
      past.resolve_right (by simp [idle])
    cases outcome with
    | engaged => exact ⟨past, List.append_nil _⟩
    | obeys | leaves => exact ⟨.inr rfl, List.append_nil _⟩
    | handles idle unasked | ticks idle unasked | waits idle unasked =>
      exact absurd (asked idle) (by simp [unasked])
  · exact ⟨past.imp beside.asked beside.stopped.mpr, beside.begun⟩

theorem over_after {l : Life α} (past : l.Over) (events : List (Event α)) :
    (l.after events).Over ∧ (l.after events).begun = l.begun := by
  induction events generalizing l with
  | nil => exact ⟨past, rfl⟩
  | cons event events ih =>
    obtain ⟨still, same⟩ := over_step past event
    obtain ⟨later, begun⟩ := ih still
    exact ⟨later, begun.trans same⟩

theorem stopped_step {l : Life α} (stopped : l.actor.phase = .stopped) (event : Event α) :
    (l.step event).actor.phase = .stopped := by
  refine step_cases l event (fun now a found _ outcome => ?_) fun l' beside => beside.stopped.mpr stopped
  cases outcome with
  | engaged => exact stopped
  | obeys | leaves => rfl
  | handles idle | ticks idle | waits idle => exact absurd (stopped.symm.trans idle) (by decide)

theorem stopped_after {l : Life α} (stopped : l.actor.phase = .stopped) (events : List (Event α)) :
    (l.after events).actor.phase = .stopped := by
  induction events generalizing l with
  | nil => exact stopped
  | cons event events ih => exact ih (stopped_step stopped event)

/-! ### Actors that are left alone -/

/-- Nobody can send any more, and nobody has asked the actor to stop. -/
structure Left (l : Life α) : Prop where
  alone : l.senders = 0
  unasked : l.actor.stopRequested = false

theorem left_step {l : Life α} (left : l.Left) {event : Event α} (unasked : event ≠ .stop) :
    (l.step event).Left ∧ (l.step event).sent = l.sent := by
  obtain ⟨alone, calm⟩ := left
  cases event with
  | stop => exact absurd rfl unasked
  | send command | cloneSender | dropSender =>
    simp only [step, alone, if_true]
    exact ⟨⟨alone, calm⟩, trivial⟩
  | turn now =>
    refine step_turn l now fun a found outcome => ⟨⟨alone, ?_⟩, rfl⟩
    cases outcome <;> exact calm
  | finish =>
    refine ⟨⟨alone, ?_⟩, rfl⟩
    simp only [step, Actor.finish]
    split <;> exact calm

theorem left_after {l : Life α} (left : l.Left) {events : List (Event α)} (unasked : .stop ∉ events) :
    (l.after events).Left ∧ (l.after events).sent = l.sent := by
  induction events generalizing l with
  | nil => exact ⟨left, rfl⟩
  | cons event events ih =>
    obtain ⟨other, others⟩ := not_or.mp (mt List.mem_cons.mpr unasked)
    obtain ⟨first, same⟩ := left_step left (Ne.symm other)
    obtain ⟨later, sent⟩ := ih first others
    exact ⟨later, sent.trans same⟩

theorem begun_step (l : Life α) (event : Event α) : l.begun <+: (l.step event).begun :=
  step_cases l event (fun _ _ _ _ _ => List.prefix_append _ _) fun _ beside =>
    beside.begun ▸ List.prefix_rfl

theorem begun_after (l : Life α) (events : List (Event α)) : l.begun <+: (l.after events).begun := by
  induction events generalizing l with
  | nil => exact List.prefix_rfl
  | cons event events ih => exact (begun_step l event).trans (ih _)

/-- Unless a handler is started, nothing changes when the next tick is due, and an actor that is not busy
does not become so. -/
theorem begun_or_same_step (l : Life α) (event : Event α) :
    l.begun.length < (l.step event).begun.length ∨
      (l.step event).actor.ticker = l.actor.ticker ∧
        ((l.step event).actor.phase = .busy → l.actor.phase = .busy) := by
  refine step_cases l event (fun now a found _ outcome => ?_) fun l' beside =>
    .inr ⟨beside.ticker, beside.busy⟩
  cases outcome with
  | handles | ticks => exact .inl (by simp)
  | engaged | waits => exact .inr ⟨rfl, id⟩
  | obeys | leaves => exact .inr ⟨rfl, fun busy => nomatch busy⟩

theorem begun_or_same (l : Life α) (events : List (Event α)) :
    l.begun.length < (l.after events).begun.length ∨
      (l.after events).actor.ticker = l.actor.ticker ∧
        ((l.after events).actor.phase = .busy → l.actor.phase = .busy) := by
  induction events generalizing l with
  | nil => exact .inr ⟨rfl, id⟩
  | cons event events ih =>
    rcases begun_or_same_step l event with begun | ⟨ticker, busy⟩
    · exact .inl (begun.trans_le (begun_after _ events).length_le)
    · rcases ih (l.step event) with begun | ⟨ticker', busy'⟩
      · exact .inl ((begun_step l event).length_le.trans_lt begun)
      · exact .inr ⟨ticker'.trans ticker, fun later => busy (busy' later)⟩

end Life

/-- A stretch of time in which nobody asks an actor to stop, long enough for the handler to return and for
the actor to have its turn at the end. -/
structure Round (α : Type) where
  events : List (Event α)
  now : Nat
  served : List.Sublist [.finish, .turn now] events
  within : ∀ earlier, .turn earlier ∈ events → earlier ≤ now
  unasked : .stop ∉ events

/-- The handler returns, and the actor has its turn. -/
def Round.brief (now : Nat) : Round α where
  events := [.finish, .turn now]
  now
  served := List.Sublist.refl _
  within := by simp
  unasked := by simp

theorem Round.split (r : Round α) :
    ∃ before after, r.events = before ++ .turn r.now :: after ∧ .finish ∈ before := by
  obtain ⟨before, after, whole, finish, turn⟩ := List.cons_sublist_iff.mp r.served
  obtain ⟨between, rest, rfl⟩ := List.append_of_mem (List.singleton_sublist.mp turn)
  exact ⟨before ++ between, rest, by rw [whole, List.append_assoc], List.mem_append_left _ finish⟩

namespace Life

/-- Once its handler has returned, an actor is busy only with what it has begun. -/
theorem begun_or_free (l : Life α) {events : List (Event α)} (finish : .finish ∈ events) :
    l.begun.length < (l.after events).begun.length ∨
      (l.after events).actor.ticker = l.actor.ticker ∧ (l.after events).actor.phase ≠ .busy := by
  obtain ⟨before, after, rfl⟩ := List.append_of_mem finish
  rw [after_append]
  have free : ((l.after before).step .finish).actor.phase ≠ .busy := by
    simp only [step, Actor.finish]
    split
    · simp
    · assumption
  have beside : Beside (l.after before) ((l.after before).step .finish) := beside_step _ (by simp)
  rcases begun_or_same l before with begun | ⟨first, -⟩
  · exact .inl (begun.trans_le (begun_after (l.after before) (.finish :: after)).length_le)
  · rcases begun_or_same ((l.after before).step .finish) after with begun | ⟨second, busy⟩
    · exact .inl ((begun_after l before).length_le.trans_lt begun)
    · exact .inr ⟨second.trans (beside.ticker.trans first), mt busy free⟩

/-- An actor that is idle, with nobody to send to it and no tick to wait for, starts a handler or stops. -/
theorem turn_of_ready {l : Life α} (orderly : l.Orderly) (left : l.Left) {now : Nat}
    (free : l.actor.phase ≠ .busy) (ready : ∀ t, l.actor.ticker = some t → t.due ≤ now) :
    (l.step (.turn now)).actor.phase = .stopped ∨
      l.begun.length < (l.step (.turn now)).begun.length := by
  refine step_turn l now fun a found outcome => ?_
  cases outcome with
  | engaged engaged =>
    cases phase : l.actor.phase with
    | stopped => exact .inl rfl
    | idle => exact absurd phase engaged
    | busy => exact absurd phase free
  | obeys | leaves => exact .inl rfl
  | handles | ticks => exact .inr (by simp)
  | waits idle unasked going early =>
    rcases going with reachable | recurrent
    · have closed := orderly.closed.mpr left.alone
      exact absurd reachable (by simp [closed])
    · obtain ⟨t, ticker⟩ := Option.ne_none_iff_exists'.mp recurrent
      exact absurd (ready t ticker) (Nat.not_le.mpr (early t ticker))

theorem round_begins {l : Life α} (orderly : l.Orderly) (left : l.Left) (r : Round α)
    (ready : ∀ t, l.actor.ticker = some t → t.due ≤ r.now) :
    (l.after r.events).actor.phase = .stopped ∨ l.begun.length < (l.after r.events).begun.length := by
  obtain ⟨before, after, whole, finish⟩ := r.split
  have unasked : .stop ∉ before := fun stop => r.unasked (by simp [whole, stop])
  rw [whole, after_append]
  have later := begun_after ((l.after before).step (.turn r.now)) after
  rcases begun_or_free l finish with begun | ⟨ticker, free⟩
  · exact .inr (begun.trans_le (begun_after (l.after before) (.turn r.now :: after)).length_le)
  · rcases turn_of_ready (orderly_after orderly before) (left_after left unasked).1 free
      (by simpa only [ticker] using ready) with stopped | begun
    · exact .inl (stopped_after stopped after)
    · exact .inr (((begun_after l before).length_le.trans_lt begun).trans_le later.length_le)

theorem period_step (l : Life α) (event : Event α) :
    (l.step event).actor.ticker.map Ticker.period = l.actor.ticker.map Ticker.period := by
  refine step_cases l event (fun now a found _ outcome => ?_) fun l' beside =>
    congrArg (Option.map Ticker.period) beside.ticker
  cases outcome with
  | @ticks _ _ t recurrent _ =>
    have period : (t.next now).period = t.period := by
      unfold Ticker.next
      split <;> rfl
    simp only [recurrent, Option.map_some, period]
  | _ => rfl

/-- An actor stays a plain one, or recurrent with its period. -/
theorem period_after (l : Life α) (events : List (Event α)) :
    (l.after events).actor.ticker.map Ticker.period = l.actor.ticker.map Ticker.period := by
  induction events generalizing l with
  | nil => rfl
  | cons event events ih => exact (ih _).trans (period_step l event)

theorem plain_after (l : Life α) (events : List (Event α)) :
    (l.after events).actor.ticker = none ↔ l.actor.ticker = none := by
  have same := congrArg Option.isNone (period_after l events)
  rw [Option.isNone_map, Option.isNone_map] at same
  rw [← Option.isNone_iff_eq_none, same, Option.isNone_iff_eq_none]

theorem due_step {l : Life α} {event : Event α} {now : Nat} (within : ∀ t, event = .turn t → t ≤ now)
    (due : ∀ t, l.actor.ticker = some t → t.due ≤ now + t.period) :
    ∀ t, (l.step event).actor.ticker = some t → t.due ≤ now + t.period := by
  refine step_cases l event (fun time a found turn outcome => ?_) fun l' beside => ?_
  · have early := within time turn
    cases outcome with
    | @ticks _ _ t recurrent reached =>
      rintro _ ⟨⟩
      unfold Ticker.next
      split <;> dsimp only <;> omega
    | _ => exact due
  · rwa [beside.ticker]

/-- After events up to `now` the next tick is due at most a period from then. -/
theorem due_after {l : Life α} {events : List (Event α)} {now : Nat}
    (within : ∀ t, .turn t ∈ events → t ≤ now)
    (due : ∀ t, l.actor.ticker = some t → t.due ≤ now + t.period) :
    ∀ t, (l.after events).actor.ticker = some t → t.due ≤ now + t.period := by
  induction events generalizing l with
  | nil => exact due
  | cons event events ih =>
    have first : ∀ t, event = .turn t → t ≤ now := fun t turn => within t (turn ▸ List.mem_cons_self)
    exact ih (fun t turn => within t (List.mem_cons_of_mem _ turn)) (due_step first due)

end Life

/-- Every round ends when the tick is due that is next after the round before. -/
def OnTime : Ticker → List (Round α) → Prop
  | _, [] => True
  | t, r :: rounds => t.due ≤ r.now ∧ OnTime { t with due := r.now + t.period } rounds

theorem OnTime.earlier {t t' : Ticker} {rounds : List (Round α)} (onTime : OnTime t rounds)
    (period : t'.period = t.period) (due : t'.due ≤ t.due) : OnTime t' rounds := by
  cases rounds with
  | nil => trivial
  | cons r rounds =>
    obtain ⟨ready, later⟩ := onTime
    exact ⟨due.trans ready, by rwa [period]⟩

namespace Life

theorem onTime_after (l : Life α) {r : Round α} {rounds : List (Round α)}
    (onTime : ∀ t, l.actor.ticker = some t → OnTime t (r :: rounds)) :
    ∀ t, (l.after r.events).actor.ticker = some t → OnTime t rounds := by
  intro t' ticker'
  have same := period_after l r.events
  rw [ticker', Option.map_some, eq_comm, Option.map_eq_some_iff] at same
  obtain ⟨t, ticker, period⟩ := same
  have soon : ∀ t, l.actor.ticker = some t → t.due ≤ r.now + t.period := fun t ticker =>
    (onTime t ticker).1.trans (Nat.le_add_right _ _)
  have due := due_after r.within soon t' ticker'
  exact (onTime t ticker).2.earlier period.symm (period ▸ due)

theorem rounds_begin {l : Life α} (orderly : l.Orderly) (left : l.Left) (rounds : List (Round α))
    (onTime : ∀ t, l.actor.ticker = some t → OnTime t rounds) :
    (l.after (rounds.flatMap Round.events)).actor.phase = .stopped ∨
      l.begun.length + rounds.length ≤ (l.after (rounds.flatMap Round.events)).begun.length := by
  induction rounds generalizing l with
  | nil => exact .inr (Nat.le_refl _)
  | cons r rounds ih =>
    rw [List.flatMap_cons, after_append]
    rcases round_begins orderly left r (fun t ticker => (onTime t ticker).1) with stopped | begun
    · exact .inl (stopped_after stopped _)
    · have next := onTime_after l onTime
      refine (ih (orderly_after orderly r.events) (left_after left r.unasked).1 next).imp_right
        fun more => ?_
      rw [List.length_cons]
      omega

/-- While nobody sends, what is still to be handled is what waits. -/
theorem length_handled_le {l : Life α} (orderly : l.Orderly) (left : l.Left) {events : List (Event α)}
    (unasked : .stop ∉ events) (going : (l.after events).actor.phase ≠ .stopped) :
    (l.after events).handled.length ≤ l.handled.length + l.actor.inbox.length := by
  have before := orderly.kept (mt (stopped_after · events) going)
  have first := (orderly_after orderly events).first
  rw [(left_after left unasked).2, ← before] at first
  simpa using first.length_le

/-- Left alone, a plain actor handles all that waits and stops, and a recurrent one never stops and goes on
ticking. -/
theorem left_alone {l : Life α} (orderly : l.Orderly) (left : l.Left) {rounds : List (Round α)}
    (onTime : ∀ t, l.actor.ticker = some t → OnTime t rounds) :
    let l' := l.after (rounds.flatMap Round.events)
    (l.actor.ticker = none → l.actor.inbox.length < rounds.length →
      l'.actor.phase = .stopped ∧ l'.handled = l.sent) ∧
    (l.actor.ticker ≠ none → l'.actor.phase ≠ .stopped ∧
      ticks l.begun + rounds.length ≤ ticks l'.begun + l.actor.inbox.length) := by
  intro l'
  have calm : .stop ∉ rounds.flatMap Round.events := by
    rw [List.mem_flatMap]
    exact fun ⟨r, _, stop⟩ => r.unasked stop
  have orderly' : l'.Orderly := orderly_after orderly _
  have plain : l'.actor.ticker = none ↔ l.actor.ticker = none := plain_after l _
  obtain ⟨left', sent⟩ : l'.Left ∧ l'.sent = l.sent := left_after left calm
  have served : l'.actor.phase = .stopped ∨ l.begun.length + rounds.length ≤ l'.begun.length :=
    rounds_begin orderly left rounds onTime
  have turns := length_turns l.begun
  have turns' := length_turns l'.begun
  have most (going : l'.actor.phase ≠ .stopped) :
      (commands l'.begun).length ≤ (commands l.begun).length + l.actor.inbox.length :=
    length_handled_le orderly left calm going
  have reason (stopped : l'.actor.phase = .stopped) :
      l.actor.ticker = none ∧ l'.handled = l.sent := by
    obtain asked | ⟨timeless, -, all⟩ := orderly'.reason stopped
    · exact absurd asked (Bool.eq_false_iff.mp left'.unasked)
    · exact ⟨plain.mp timeless, all.trans sent⟩
  refine ⟨fun timeless enough => ?_, fun recurrent => ?_⟩
  · have stopped : l'.actor.phase = .stopped := by
      by_contra going
      -- each round would have begun a command, and there are not that many
      have begun := served.resolve_left going
      have none := orderly.timed timeless
      have none' := orderly'.timed (plain.mpr timeless)
      have most := most going
      omega
    exact ⟨stopped, (reason stopped).2⟩
  · have going : l'.actor.phase ≠ .stopped := fun stopped => recurrent (reason stopped).1
    have begun := served.resolve_left going
    have most := most going
    exact ⟨going, by omega⟩

/-- The loop of an actor, whatever happens around it. The handler is started for the commands in the order
in which they were sent, once at a time, and for nothing any more when the actor was asked to stop or has
stopped; it stops only when it was asked to, or if it is a plain one, when nobody can send and all commands
were handled. Left alone, a plain one does stop, at the latest one round after the last command that waits;
a recurrent one never stops, and ticks in every round that handles no command. -/
theorem loop_law (ticker : Option Ticker) (events : List (Event α)) :
    let l := (start ticker : Life α).after events
    l.handled <+: l.sent ∧
    (l.begun.length = l.ended + if l.actor.phase = .busy then 1 else 0) ∧
    (l.actor.stopRequested = true ∨ l.actor.phase = .stopped →
      ∀ more, (l.after more).begun = l.begun) ∧
    (l.actor.phase = .stopped →
      l.actor.stopRequested = true ∨ ticker = none ∧ l.senders = 0 ∧ l.handled = l.sent) ∧
    (l.senders = 0 → l.actor.stopRequested = false →
      ∀ rounds : List (Round α), (∀ t, l.actor.ticker = some t → OnTime t rounds) →
        let l' := l.after (rounds.flatMap Round.events)
        (ticker = none → l.actor.inbox.length < rounds.length →
          l'.actor.phase = .stopped ∧ l'.handled = l.sent) ∧
        (ticker ≠ none → l'.actor.phase ≠ .stopped ∧
          ticks l.begun + rounds.length ≤ ticks l'.begun + l.actor.inbox.length)) := by
  intro l
  have orderly : l.Orderly := orderly_after (orderly_start ticker) events
  have plain : l.actor.ticker = none ↔ ticker = none := plain_after (start ticker) events
  refine ⟨orderly.first, orderly.single, fun past more => (over_after past more).2, ?_, ?_⟩
  · intro stopped
    refine (orderly.reason stopped).imp_right fun ⟨timeless, unreachable, all⟩ => ?_
    exact ⟨plain.mp timeless, orderly.closed.mp unreachable, all⟩
  · intro alone unasked rounds onTime
    obtain ⟨ends, goesOn⟩ := left_alone orderly ⟨alone, unasked⟩ onTime
    exact ⟨fun timeless => ends (plain.mpr timeless), fun recurrent => goesOn (mt plain.mp recurrent)⟩

/-- Two commands are sent, and the last sender is dropped. -/
def farewell : List (Event Nat) := [.send 1, .send 2, .dropSender]

def threeRounds : List (Round Nat) := [.brief 0, .brief 10, .brief 20]

/-- A plain actor handles both commands, a recurrent one goes on, and one that was asked to stop before does
nothing. -/
theorem farewell_handled :
    (((start none).after farewell).after (threeRounds.flatMap Round.events)).actor.phase = .stopped ∧
    (((start none).after farewell).after (threeRounds.flatMap Round.events)).handled = [1, 2] ∧
    (((start (some ⟨10, 0⟩)).after farewell).after (threeRounds.flatMap Round.events)).actor.phase ≠
      .stopped ∧
    ∀ more, (((start none).after (.stop :: farewell)).after more).begun = [] := by
  have plain := loop_law none farewell
  have timed := loop_law (some ⟨10, 0⟩) farewell
  have asked := loop_law none (.stop :: farewell)
  have onTime : ∀ t, ((start (some ⟨10, 0⟩)).after farewell).actor.ticker = some t →
    OnTime t threeRounds := by
    rintro _ ⟨⟩
    exact ⟨by decide, by decide, by decide, trivial⟩
  obtain ⟨stops, all⟩ :=
    (plain.2.2.2.2 rfl rfl threeRounds (fun _ timeless => nomatch timeless)).1 rfl (by decide)
  have sent : ((start none).after farewell).sent = [1, 2] := rfl
  exact ⟨stops, all.trans sent, ((timed.2.2.2.2 rfl rfl threeRounds onTime).2 (by simp)).1,
    asked.2.2.1 (.inl rfl)⟩

end Life

end Cohort.Actor
