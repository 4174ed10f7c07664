import Mathlib.Data.List.Forall2
import Cohort.Actor.Registry
import Cohort.Proofs.Actor.Loop

/-! The actors of a registry. Whatever is asked of it, and however long handlers take, every actor that it
ever started has gone through a life, and its record tells of the handlers of these lives and of nothing
else. So what holds of every life holds of whatever the registry runs. -/

namespace Cohort.Actor

variable {α : Type}

/-- What has become of an actor that was started once. -/
def Life.Lived (l : Life α) : Prop := ∃ ticker events, l = (Life.start ticker).after events

theorem Life.Lived.after {l : Life α} (lived : l.Lived) (events : List (Event α)) :
    (l.after events).Lived := by
  obtain ⟨ticker, before, rfl⟩ := lived
  exact ⟨ticker, before ++ events, (after_append _ before events).symm⟩

theorem Life.Lived.orderly {l : Life α} (lived : l.Lived) : l.Orderly := by
  obtain ⟨ticker, events, rfl⟩ := lived
  exact orderly_after (orderly_start ticker) events

namespace Registry

/-- An actor that was started under a name. -/
structure Role (α : Type) where
  name : String
  life : Life α

/-- The turns of one performer among those of all, which are here the latest first. -/
def turnsOf (index : Nat) (turns : List (Nat × Turn α)) : List (Turn α) :=
  (turns.filterMap fun turn => if turn.1 = index then some turn.2 else none).reverse

/-- A start of a handler is a turn of the performer that has this name. -/
def Told (roles : List (Role α)) (call : Call α) (turn : Nat × Turn α) : Prop :=
  (roles[turn.1]?).map Role.name = some call.name ∧ call.turn = turn.2

/-- Every performer has a role, and the record is that of all roles. Whom the registry knows by name, nobody
else has a sender to. -/
structure Staged (r : Registry α) (roles : List (Role α)) (turns : List (Nat × Turn α)) : Prop where
  played (i : Nat) : (r.performers[i]?).map (fun p => (p.name, p.actor)) =
    (roles[i]?).map fun x => (x.name, x.life.actor)
  lived : ∀ x ∈ roles, x.life.Lived
  told : List.Forall₂ (Told roles) r.calls turns
  begun (i : Nat) (x : Role α) : roles[i]? = some x → x.life.begun = turnsOf i turns
  known : ∀ y ∈ r.names, ∃ l, roles[y.2]? = some ⟨y.1, l⟩ ∧ l.senders = 1

variable {r r' : Registry α} {roles : List (Role α)} {turns : List (Nat × Turn α)}

theorem staged_start (patience : Nat) : Staged ({ patience } : Registry α) [] [] where
  played _ := rfl
  lived := by simp
  told := .nil
  begun := by simp
  known := by simp

theorem Staged.of_same (staged : Staged r roles turns) (performers : r'.performers = r.performers)
    (calls : r'.calls = r.calls) (names : ∀ y ∈ r'.names, y ∈ r.names) : Staged r' roles turns where
  played := performers ▸ staged.played
  lived := staged.lived
  told := calls ▸ staged.told
  begun := staged.begun
  known y member := staged.known y (names y member)

theorem Staged.role (staged : Staged r roles turns) {i : Nat} {p : Performer α}
    (here : r.performers[i]? = some p) : ∃ l, roles[i]? = some ⟨p.name, l⟩ ∧ l.actor = p.actor := by
  have same := staged.played i
  rw [here, Option.map_some, eq_comm, Option.map_eq_some_iff] at same
  obtain ⟨⟨name, l⟩, found, both⟩ := same
  obtain ⟨rfl, actor⟩ := Prod.mk.inj both
  exact ⟨l, found, actor⟩

theorem Staged.performer (staged : Staged r roles turns) {i : Nat} {x : Role α}
    (here : roles[i]? = some x) :
    ∃ p, r.performers[i]? = some p ∧ p.name = x.name ∧ p.actor = x.life.actor := by
  have same := staged.played i
  rw [here, Option.map_some, Option.map_eq_some_iff] at same
  obtain ⟨p, found, both⟩ := same
  exact ⟨p, found, Prod.mk.inj both⟩

theorem Staged.length (staged : Staged r roles turns) : roles.length = r.performers.size := by
  have ends (i : Nat) : r.performers.size ≤ i ↔ roles.length ≤ i := by
    have same := congrArg Option.isNone (staged.played i)
    rw [Option.isNone_map, Option.isNone_map] at same
    rw [← Array.getElem?_eq_none_iff, ← List.getElem?_eq_none_iff, ← Option.isNone_iff_eq_none, same,
      Option.isNone_iff_eq_none]
  exact Nat.le_antisymm ((ends _).mp (Nat.le_refl _)) ((ends _).mpr (Nat.le_refl _))

theorem Told.within {call : Call α} {turn : Nat × Turn α} (told : Told roles call turn) :
    turn.1 < roles.length := by
  obtain ⟨x, here, -⟩ := Option.map_eq_some_iff.mp told.1
  exact (List.getElem?_eq_some_iff.mp here).1

theorem told_within {calls : List (Call α)} (told : List.Forall₂ (Told roles) calls turns) :
    ∀ turn ∈ turns, turn.1 < roles.length := by
  induction told with
  | nil => simp
  | cons first _ ih => exact List.forall_mem_cons.mpr ⟨first.within, ih⟩

theorem names_set {i : Nat} {name : String} {l l' : Life α} (here : roles[i]? = some ⟨name, l⟩) (j : Nat) :
    ((roles.set i ⟨name, l'⟩)[j]?).map Role.name = (roles[j]?).map Role.name := by
  by_cases same : j = i
  · subst same
    rw [List.getElem?_set_self (List.getElem?_eq_some_iff.mp here).1, here]
    rfl
  · rw [List.getElem?_set_ne (Ne.symm same)]

theorem turnsOf_cons (i : Nat) (turn : Nat × Turn α) :
    turnsOf i (turn :: turns) = turnsOf i turns ++ if turn.1 = i then [turn.2] else [] := by
  by_cases same : turn.1 = i <;> simp [turnsOf, same]

theorem turnsOf_eq_nil {i : Nat} (absent : ∀ turn ∈ turns, turn.1 ≠ i) : turnsOf i turns = [] := by
  rw [turnsOf, List.reverse_eq_nil_iff, List.filterMap_eq_nil_iff]
  exact fun turn member => if_neg (absent turn member)

/-- Whom the registry knows by name has one sender left, which is the registry's. -/
theorem Staged.sender (staged : Staged r roles turns) {y : String × Nat} (member : y ∈ r.names) {x : Role α}
    (plays : roles[y.2]? = some x) : x.name = y.1 ∧ x.life.senders = 1 := by
  obtain ⟨l, here, one⟩ := staged.known y member
  obtain rfl := Option.some.inj (here.symm.trans plays)
  exact ⟨rfl, one⟩

/-- Something happens to one of the performers, and in the course of it perhaps its handler is started. -/
theorem Staged.put (staged : Staged r roles turns) {i : Nat} {p : Performer α} {l l' : Life α}
    (plays : roles[i]? = some ⟨p.name, l⟩) {events : List (Event α)} (goesOn : l.after events = l')
    (time : Nat) (found : Option (Turn α)) (p' : Performer α)
    (performers : r'.performers = r.performers.setIfInBounds i p') (name : p'.name = p.name)
    (actor : p'.actor = l'.actor) (begun : l'.begun = l.begun ++ found.toList)
    (calls : r'.calls = (found.map fun turn => ⟨time, p.name, turn⟩).toList ++ r.calls)
    (known : ∀ y ∈ r'.names, y ∈ r.names ∧ (y.2 = i → l'.senders = 1)) :
    Staged r' (roles.set i ⟨p.name, l'⟩) ((found.map (i, ·)).toList ++ turns) where
  played j := by
    rw [performers, Array.getElem?_setIfInBounds, List.getElem?_set, staged.length]
    by_cases same : i = j
    · simp only [if_pos same]
      split <;> simp [name, actor]
    · simp only [if_neg same, staged.played j]
  lived x member := by
    rcases List.mem_or_eq_of_mem_set member with old | rfl
    · exact staged.lived x old
    · exact goesOn ▸ (staged.lived _ (List.mem_of_getElem? plays)).after events
  told := by
    have others : List.Forall₂ (Told (roles.set i ⟨p.name, l'⟩)) r.calls turns :=
      staged.told.imp fun call turn told => ⟨(names_set plays turn.1).trans told.1, told.2⟩
    rw [calls]
    cases found with
    | none => exact others
    | some turn => exact .cons ⟨by rw [names_set plays, plays]; rfl, rfl⟩ others
  begun j x here := by
    have more : turnsOf j ((found.map (i, ·)).toList ++ turns) =
        turnsOf j turns ++ if i = j then found.toList else [] := by
      cases found with
      | none => simp
      | some turn => exact turnsOf_cons j (i, turn)
    rw [more]
    by_cases same : i = j
    · subst same
      rw [List.getElem?_set_self (List.getElem?_eq_some_iff.mp plays).1] at here
      obtain rfl := Option.some.inj here
      rw [if_pos rfl, begun, staged.begun i _ plays]
    · rw [List.getElem?_set_ne same] at here
      rw [if_neg same, List.append_nil, staged.begun j x here]
  known y member := by
    obtain ⟨old, one⟩ := known y member
    by_cases same : i = y.2
    · subst same
      have called : p.name = y.1 := (staged.sender old plays).1
      refine ⟨l', ?_, one rfl⟩
      rw [List.getElem?_set_self (List.getElem?_eq_some_iff.mp plays).1, called]
    · obtain ⟨l₀, here, one⟩ := staged.known y old
      exact ⟨l₀, by rw [List.getElem?_set_ne same, here], one⟩

/-- An actor is started. -/
theorem Staged.push (staged : Staged r roles turns) {name : String} {ticker : Option Ticker}
    {p : Performer α}
    (performers : r'.performers = r.performers.push p) (called : p.name = name)
    (actor : p.actor = { ticker }) (calls : r'.calls = r.calls)
    (known : ∀ y ∈ r'.names, y ∈ r.names ∨ y = (name, r.performers.size)) :
    Staged r' (roles ++ [⟨name, .start ticker⟩]) turns where
  played i := by
    rw [performers, Array.getElem?_push]
    rw [← staged.length]
    rcases Nat.lt_trichotomy i roles.length with before | rfl | after
    · rw [if_neg before.ne, List.getElem?_append_left before, staged.played i]
    · rw [if_pos rfl, List.getElem?_concat_length, Option.map_some, Option.map_some, called, actor]
      rfl
    · have none : roles[i]? = none := List.getElem?_eq_none after.le
      rw [if_neg after.ne', staged.played i, none,
        List.getElem?_eq_none (by simpa [Nat.succ_le_iff] using after)]
  lived x member := by
    rcases List.mem_append.mp member with old | new
    · exact staged.lived x old
    · rw [List.mem_singleton.mp new]
      exact ⟨ticker, [], rfl⟩
  told := by
    rw [calls]
    refine staged.told.imp fun call turn told => ⟨?_, told.2⟩
    rw [List.getElem?_append_left told.within, told.1]
  begun i x here := by
    rcases Nat.lt_or_ge i roles.length with old | new
    · rw [List.getElem?_append_left old] at here
      exact staged.begun i x here
    · rw [List.getElem?_append_right new] at here
      have member := List.mem_of_getElem? here
      rw [List.mem_singleton.mp member]
      exact (turnsOf_eq_nil fun turn member =>
        (Nat.lt_of_lt_of_le (told_within staged.told turn member) new).ne).symm
  known y member := by
    rcases known y member with old | rfl
    · obtain ⟨l, here, one⟩ := staged.known y old
      exact ⟨l, by rw [List.getElem?_append_left (List.getElem?_eq_some_iff.mp here).1, here], one⟩
    · exact ⟨.start ticker, by rw [← staged.length]; exact List.getElem?_concat_length, rfl⟩

/-! ### What a registry does -/

/-- The registry is that of some lives. -/
def Lives (r : Registry α) : Prop := ∃ roles turns, Staged r roles turns

theorem Lives.of_same (lives : r.Lives) (performers : r'.performers = r.performers)
    (calls : r'.calls = r.calls)
    (names : ∀ y ∈ r'.names, y ∈ r.names) : r'.Lives := by
  obtain ⟨roles, turns, staged⟩ := lives
  exact ⟨roles, turns, staged.of_same performers calls names⟩

theorem Lives.wake (lives : r.Lives) (index : Nat) : (r.wake index).Lives :=
  lives.of_same rfl rfl fun _ member => member

theorem modify_performers {i : Nat} {p : Performer α} (here : r.performers[i]? = some p)
    (f : Actor α → Actor α) :
    (r.modify i f).performers = r.performers.setIfInBounds i { p with actor := f p.actor } := by
  refine Array.ext_getElem? fun j => ?_
  rw [Registry.modify, Array.getElem?_modify, Array.getElem?_setIfInBounds]
  by_cases same : i = j
  · subst same
    rw [if_pos rfl, if_pos rfl, here, if_pos (Array.getElem?_eq_some_iff.mp here).1]
    rfl
  · rw [if_neg same, if_neg same]

theorem lives_perform (index rounds : Nat) (lives : r.Lives) : (perform index rounds r).Lives := by
  induction rounds generalizing r with
  | zero => exact lives
  | succ rounds ih =>
    unfold perform
    split
    case h_1 => exact lives
    case h_2 p here =>
    obtain ⟨roles, turns, staged⟩ := lives
    obtain ⟨l, plays, same⟩ := staged.role here
    have known (y : String × Nat) (member : y ∈ r.names) : y ∈ r.names ∧ (y.2 = index → l.senders = 1) :=
      ⟨member, fun mine => (staged.sender member (mine ▸ plays)).2⟩
    cases found : p.actor.turn r.now with
    | mk a turn =>
    have turned : l.after [.turn r.now] = { l with actor := a, begun := l.begun ++ turn.toList } := by
      change l.step (.turn r.now) = _
      simp only [Life.step, same, found]
    cases turn with
    | none =>
      have idle : ({ r with performers := r.performers.setIfInBounds index { p with actor := a } }).Lives :=
        ⟨_, _, staged.put plays turned r.now none { p with actor := a } rfl rfl rfl rfl rfl known⟩
      dsimp only
      split
      · exact idle.of_same rfl rfl fun _ member => member
      · exact idle
    | some turn =>
      dsimp only
      split
      · -- a handler that takes no time has returned before the next turn
        have returned : l.after [.turn r.now, .finish] = (l.after [.turn r.now]).step .finish := rfl
        rw [turned] at returned
        exact ih ⟨_, _, staged.put plays returned r.now (some turn)
          { p with actor := a.finish } rfl rfl rfl rfl
          rfl known⟩
      · exact ⟨_, _, staged.put plays turned r.now (some turn)
          { p with actor := a, busyUntil := r.now + p.effort turn } rfl rfl rfl rfl rfl known⟩

theorem lives_poll (index : Nat) (lives : r.Lives) : (r.poll index).Lives := by
  unfold poll
  split
  case h_1 => exact lives
  case h_2 p here =>
  refine lives_perform index _ ?_
  split
  · obtain ⟨roles, turns, staged⟩ := lives
    obtain ⟨l, plays, same⟩ := staged.role here
    have finished : l.after [.finish] = l.step .finish := rfl
    refine ⟨_, _, staged.put plays finished r.now none _ (modify_performers here _) rfl ?_ ?_ rfl ?_⟩
    · rw [← same]
      rfl
    · exact (List.append_nil _).symm
    · exact fun y member => ⟨member, fun mine => (staged.sender member (mine ▸ plays)).2⟩
  · exact lives

theorem lives_run (until_ steps : Nat) (lives : r.Lives) : (run until_ steps r).Lives := by
  induction steps generalizing r with
  | zero => exact lives
  | succ steps ih =>
    unfold run
    split
    · exact lives
    · exact ih (lives_poll _ (lives.of_same rfl rfl fun _ member => member))

theorem lives_awaitStop (index deadline steps : Nat) (lives : r.Lives) :
    (awaitStop index deadline steps r).1.Lives := by
  induction steps generalizing r with
  | zero => exact lives
  | succ steps ih =>
    unfold awaitStop
    split
    · exact ih (lives_poll _ (lives.of_same rfl rfl fun _ member => member))
    · split
      · exact lives
      · dsimp only
        split
        · exact ih (lives.of_same rfl rfl fun _ member => member)
        · exact lives.of_same rfl rfl fun _ member => member

/-- An actor of which the registry no longer knows is asked to stop, and nobody can reach it. -/
theorem Staged.dismiss (staged : Staged r roles turns) {i : Nat} {x : Role α} (plays : roles[i]? = some x)
    (one : x.life.senders = 1) (forgotten : ∀ y ∈ r.names, y.2 ≠ i) :
    (r.modify i fun a => a.requestStop.abandon).Lives := by
  obtain ⟨name, l⟩ := x
  obtain ⟨p, here, rfl, same⟩ := staged.performer plays
  have gone : l.after [.stop, .dropSender] =
    { l with senders := 0, actor := l.actor.requestStop.abandon } := by
    change (l.step .stop).step .dropSender = _
    simp only [Life.step]
    rw [one]
  refine ⟨_, _, staged.put plays gone r.now none _ (modify_performers here _) rfl ?_ ?_ rfl ?_⟩
  · rw [same]
  · exact (List.append_nil _).symm
  · exact fun y member => ⟨member, fun mine => absurd mine (forgotten y member)⟩

theorem mem_of_named {name : String} {i : Nat} (named : r.named? name = some i) : (name, i) ∈ r.names := by
  obtain ⟨before, after, whole, -⟩ := List.lookup_eq_some_iff.mp named
  rw [whole]
  exact List.mem_append_right _ List.mem_cons_self

/-- A name of which the registry no longer knows was the only one of the performer. -/
theorem Staged.forgotten (staged : Staged r roles turns) {i : Nat} {name : String} {l : Life α}
    (plays : roles[i]? = some ⟨name, l⟩) : ∀ y ∈ r.names.filter (·.1 != name), y.2 ≠ i := by
  intro y member mine
  obtain ⟨known, other⟩ := List.mem_filter.mp member
  have called : name = y.1 := (staged.sender known (mine ▸ plays)).1
  simp [called] at other

theorem lives_destroy (name : String) (lives : r.Lives) : (r.destroy name).1.Lives := by
  unfold destroy
  split
  case h_1 => exact lives
  case h_2 index named =>
  have dismissed : (({ r with names := r.names.filter (·.1 != name) } : Registry α).modify index
      fun a => a.requestStop.abandon).Lives := by
    obtain ⟨roles, turns, staged⟩ := lives
    obtain ⟨l, plays, one⟩ := staged.known _ (mem_of_named named)
    have kept : Staged { r with names := r.names.filter (·.1 != name) } roles turns :=
      staged.of_same rfl rfl fun _ member => List.mem_of_mem_filter member
    exact kept.dismiss plays one (staged.forgotten plays)
  dsimp only
  split
  · exact dismissed.wake index
  · exact lives_awaitStop _ _ _ (dismissed.wake index)

theorem lives_destroyEach (names : List String) (lives : r.Lives) : (r.destroyEach names).1.Lives := by
  induction names generalizing r with
  | nil => exact lives
  | cons name names ih => exact ih (lives_destroy name lives)

/-- An actor is started, and the one that had its name is asked to stop. -/
theorem lives_spawn (name : String) (effort : Turn α → Nat) (ticker : Option Ticker) (lives : r.Lives) :
    (r.spawn name effort ticker).Lives := by
  obtain ⟨roles, turns, staged⟩ := lives
  have known (y : String × Nat) (member : y ∈ r.names.filter (·.1 != name) ++ [(name, r.performers.size)]) :
      y ∈ r.names.filter (·.1 != name) ∨ y = (name, r.performers.size) :=
    (List.mem_append.mp member).imp_right List.mem_singleton.mp
  have started : Staged (({ r with
      performers := r.performers.push ⟨name, { ticker }, effort, 0⟩
      names := r.names.filter (·.1 != name) ++ [(name, r.performers.size)] } : Registry α).wake
        r.performers.size)
      (roles ++ [⟨name, .start ticker⟩]) turns :=
    staged.push rfl rfl rfl rfl fun y member => (known y member).imp_left List.mem_of_mem_filter
  unfold spawn
  dsimp only
  split
  case h_1 old named =>
    obtain ⟨l, plays, one⟩ := staged.known _ (mem_of_named named)
    have before : old < roles.length := (List.getElem?_eq_some_iff.mp plays).1
    have still : (roles ++ [⟨name, .start ticker⟩])[old]? = some (⟨name, l⟩ : Role α) := by
      rw [List.getElem?_append_left before, plays]
    -- the name is that of the new actor now, so no name is left for the old one
    refine Lives.wake (started.dismiss still one fun y member => ?_) old
    rcases known y member with other | rfl
    · exact staged.forgotten plays y other
    · exact (staged.length ▸ before).ne'
  case h_2 => exact ⟨_, _, started⟩

theorem lives_spawnRecurrent {name : String} {effort : Turn α → Nat} {period : Nat} (lives : r.Lives)
    (started : r.spawnRecurrent name effort period = .ok r') : r'.Lives := by
  unfold spawnRecurrent at started
  split at started
  · cases started
  · obtain rfl := Except.ok.inj started
    exact lives_spawn name effort _ lives

theorem lives_send {name : String} {command : α} (lives : r.Lives) (sent : r.send name command = .ok r') :
    r'.Lives := by
  unfold send at sent
  split at sent
  · cases sent
  case h_2 index named =>
  split at sent
  · cases sent
  case h_2 p here =>
  cases posted : p.actor.send command with
  | mk a taken =>
  simp only [posted] at sent
  cases taken with
  | false => cases sent
  | true =>
    obtain rfl := Except.ok.inj sent
    obtain ⟨roles, turns, staged⟩ := lives
    obtain ⟨l, plays, same⟩ := staged.role here
    have heard (y : String × Nat) (member : y ∈ r.names) : y ∈ r.names ∧ (y.2 = index → l.senders = 1) :=
      ⟨member, fun mine => (staged.sender member (mine ▸ plays)).2⟩
    have one : l.senders = 1 := (staged.sender (mem_of_named named) plays).2
    have told : l.after [.send command] = { l with actor := a, sent := l.sent ++ [command] } := by
      change l.step (.send command) = _
      simp only [Life.step, same, posted, one]
      rfl
    have queued : ({ r with performers := r.performers.setIfInBounds index { p with actor := a } }).Lives :=
      ⟨_, _, staged.put plays told r.now none { p with actor := a } rfl rfl rfl
        (List.append_nil _).symm rfl heard⟩
    exact queued.wake index

/-- What can be asked of a registry, and the passing of time. -/
inductive Request (α : Type) where
  | spawn (name : String) (effort : Turn α → Nat)
  | spawnRecurrent (name : String) (effort : Turn α → Nat) (period : Nat)
  | send (name : String) (command : α)
  | destroy (name : String)
  | destroyAll
  | settle
  | advance (ms : Nat)

/-- An actor that cannot be started or sent to leaves the registry as it is. -/
def serve (r : Registry α) : Request α → Registry α
  | .spawn name effort => r.spawn name effort none
  | .spawnRecurrent name effort period => (r.spawnRecurrent name effort period).toOption.getD r
  | .send name command => (r.send name command).toOption.getD r
  | .destroy name => (r.destroy name).1
  | .destroyAll => r.destroyAll.1
  | .settle => r.settle
  | .advance ms => r.advance ms

theorem lives_attempt {attempt : Except ActorFault (Registry α)} (ok : ∀ r', attempt = .ok r' → r'.Lives)
    (lives : r.Lives) : (attempt.toOption.getD r).Lives := by
  cases attempt with
  | error => exact lives
  | ok r' => exact ok r' rfl

theorem lives_serve (request : Request α) (lives : r.Lives) : (r.serve request).Lives := by
  cases request with
  | spawn name effort => exact lives_spawn name effort none lives
  | spawnRecurrent name effort period => exact lives_attempt (fun _ => lives_spawnRecurrent lives) lives
  | send name command => exact lives_attempt (fun _ => lives_send lives) lives
  | destroy name => exact lives_destroy name lives
  | destroyAll => exact lives_destroyEach _ lives
  | settle => exact lives_run _ _ lives
  | advance ms => exact (lives_run (r.now + ms) steps lives).of_same rfl rfl fun _ member => member

/-- Whatever is asked of a registry, each of its performers goes through a life, which is orderly,
and the record is that of these lives. -/
theorem served_lives (patience : Nat) (requests : List (Request α)) :
    ∃ roles turns, Staged (requests.foldl serve { patience }) roles turns ∧
      ∀ x ∈ roles, x.life.Orderly := by
  have lives : (requests.foldl serve { patience }).Lives :=
    List.foldlRecOn requests serve ⟨[], [], staged_start patience⟩ fun _ lives request _ =>
      lives_serve request lives
  obtain ⟨roles, turns, staged⟩ := lives
  exact ⟨roles, turns, staged, fun x member => (staged.lived x member).orderly⟩

end Registry

end Cohort.Actor
