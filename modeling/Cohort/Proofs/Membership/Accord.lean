import Cohort.Proofs.Membership.Issue
import Cohort.Proofs.Membership.Vigil

/-! When a failure detector has the view of its member. A detector that removes somebody installs its
view without them at once, and the member makes one of its own when the removal gets its turn. In
between others may give the member a view that is without them already; then the turn goes by unused,
and the detector may be left with a view that nobody else has. -/

namespace Cohort

/-- The change of the view whose turn this is. -/
def Effect.change? : Effect → Option ViewChange
  | .changeTurn change => some change
  | _ => none

namespace Manager.Vigil

/-- The actor has nothing to do, and waits with nothing. -/
def Rests (v : Vigil) : Prop := v.course.manager.watch.inbox = [] ∧ v.duty = none

instance (v : Vigil) : Decidable v.Rests := inferInstanceAs (Decidable (_ ∧ _))

/-- A detector has a newer view than its member. -/
def Ahead (m : Manager) : Prop := ∃ view ∈ m.view, ∃ d ∈ m.detector, view.id < d.view.id

instance (m : Manager) : Decidable (Ahead m) :=
  inferInstanceAs (Decidable (∃ view ∈ m.view, ∃ d ∈ m.detector, view.id < d.view.id))

/-- A removal gets its turn when those whom it removes are gone already, and the detector has a newer
view than its member. -/
def Misses (v : Vigil) : Move → Prop
  | .goOn _ => ∃ w ∈ v.duty, ∃ change ∈ w.effect.change?,
      v.course.manager.proposal change = none ∧ Ahead v.course.manager
  | _ => False

instance (v : Vigil) (x : Move) : Decidable (v.Misses x) :=
  match x with
  | .goOn _ => inferInstanceAs (Decidable (∃ w ∈ v.duty, ∃ change ∈ w.effect.change?,
      v.course.manager.proposal change = none ∧ Ahead v.course.manager))
  | .beside _ | .attend _ => isFalse id

/-- Some removal of a run misses its turn. -/
def MissesSome (v : Vigil) : List Move → Prop
  | [] => False
  | x :: rest => v.Misses x ∨ (v.move x).MissesSome rest

instance decidableMissesSome (v : Vigil) : (moves : List Move) → Decidable (v.MissesSome moves)
  | [] => isFalse id
  | x :: rest =>
    have := decidableMissesSome (v.move x) rest
    inferInstanceAs (Decidable (v.Misses x ∨ (v.move x).MissesSome rest))

/-- How far the detector may be ahead while the actor waits with this. -/
def lead (duty : Option Work) : Int := if duty.any (·.effect.isTurn) then 1 else 0

/-! ### What holds in every run -/

/-- What every move keeps. In a run that is paced no removal misses its turn. -/
structure Kept (paced : Prop) (v : Vigil) : Prop where
  course : v.course.Kept
  restrained : ∀ w ∈ v.course.works, w.Restrained
  duty : ∀ w ∈ v.duty, Duty v.course.manager.self w
  informed : Lives v.course.manager → Informed v.course.manager
  within : paced → Lives v.course.manager → Within v.course.manager (lead v.duty)

section
variable {paced : Prop} {v : Vigil} {c : Course}

theorem kept_fresh (config : Config) (policy : LossPolicy) (self : Member)
    (channel : Option Net.Endpoint) (rota : Detector.Rota) :
    (fresh config policy self channel rota).Kept paced where
  course := Course.kept_fresh config policy self channel rota
  restrained _ member := nomatch member
  duty _ waits := nomatch waits
  informed _ := {
    watched := rfl
    serves := ⟨rfl, rfl, fun stopped => nomatch stopped⟩
    viewless _ := ⟨rfl, rfl⟩
    viewed _ known := nomatch known }
  within _ _ _ _ known := nomatch known

theorem lead_nonneg (duty : Option Work) : 0 ≤ lead duty := by
  unfold lead
  split <;> decide

/-- What happens to a member beside the work of the actor. -/
inductive Beside (m : Manager) : Manager → Prop where
  | piece {opened : Bool} {n : Manager} (goes : Piece opened m n) : Beside m n
  | pass : Beside m m.pass
  | outside (now : Nat) (pulse : Actor Empty) (answers : List JoinAnswer) (statistics : Statistics)
      (notices : List Notice) : Beside m { m with now, pulse, answers, statistics, notices }

theorem beside_cases (restrained : ∀ w ∈ c.works, w.Restrained) (x : Course.Move) :
    Beside c.manager (c.after (allowed c x)).manager := by
  have idle : Piece false c.manager c.manager := .steady (.refl _)
  have same : Beside c.manager c.manager := .piece idle
  have begins : ∀ u : Undertaking, (∀ event, u ≠ .detectorEvent event) →
      Beside c.manager (c.piece u.procedure).manager := by
    intro u ordinary
    rw [(Course.piece_fields c _).1]
    exact .piece (run_restrained (restrained_procedure c.manager ordinary)).1
  cases x with
  | begin undertaking =>
    cases undertaking with
    | detectorEvent event => exact same
    | _ => exact begins _ (by simp)
  | resume index answer =>
    change Beside c.manager (c.move (.resume index answer)).manager
    cases waiting : c.works[index]? with
    | none => simpa only [Course.move, waiting] using same
    | some w =>
      have goesOn := restrained_next c.manager
        (restrained w (List.mem_of_getElem? waiting) c.manager) (answer w.effect)
      simp only [Course.move, waiting, Course.record, (Course.piece_fields _ _).1]
      exact .piece (run_restrained goesOn).1
  | abandon index => exact same
  | pass => exact .pass
  | outside now watch pulse answers statistics notices =>
    exact .outside now pulse answers statistics notices

theorem lives_of_piece {m n : Manager} {opened : Bool} (piece : Piece opened m n) (lives : Lives n) :
    Lives m := by
  cases piece with
  | steady goes => exact goes.lives lives
  | adopts opens before view first later => exact first.lives (lives_of_adopt (later.lives lives))

theorem informed_beside {m n : Manager} (beside : Beside m n) (informed : Lives m → Informed m)
    (lives : Lives n) :
    Informed n ∧ ∀ lead, 0 ≤ lead → (Lives m → Within m lead) → Within n lead := by
  cases beside with
  | piece goes =>
    have before := lives_of_piece goes lives
    have ready := informed before
    exact ⟨informed_piece ready goes lives, fun lead room within =>
      within_piece ready (within before) room goes lives⟩
  | pass =>
    have before : Lives m := Nat.lt_of_le_of_lt (pass_stays m).2.life lives
    obtain ⟨ready, view, detector⟩ := informed_pass (informed before) lives
    refine ⟨ready, fun lead _ within v d known found => ?_⟩
    rw [found, Option.map_some, eq_comm, Option.map_eq_some_iff] at detector
    obtain ⟨e, watching, same⟩ := detector
    rw [← same]
    exact within before v e (view ▸ known) watching
  | outside now pulse answers statistics notices =>
    have ready := informed lives
    exact ⟨informed_of_same ready rfl rfl rfl ready.serves rfl, fun lead _ within => within lives⟩

theorem grows_move (kept : c.Kept) (x : Course.Move) : Grows c.manager (c.move x).manager := by
  have runs : ∀ {b : Course} {p : Act Unit}, Lawful b.manager b.manager p →
      Grows b.manager (b.piece p).manager := by
    intro b p lawful
    rw [(Course.piece_fields b p).1]
    exact (run_lawful lawful).1
  cases x with
  | begin undertaking => exact runs (lawful_procedure c.manager undertaking)
  | resume index answer =>
    cases waiting : c.works[index]? with
    | none =>
      simp only [Course.move, waiting]
      exact .refl _
    | some w =>
      simp only [Course.move, waiting, Course.record]
      exact runs (b := c.without index)
        ((kept.pending w (List.mem_of_getElem? waiting)).lawful _ c.manager)
  | abandon index => exact .refl _
  | pass => exact pass_grows c.manager
  | outside => exact Alike.grows ⟨rfl, rfl, rfl⟩

theorem grows_after (kept : c.Kept) (moves : List Course.Move) :
    Grows c.manager (c.after moves).manager := by
  induction moves generalizing c with
  | nil => exact .refl _
  | cons x rest ih => exact (grows_move kept x).trans (ih (Course.kept_move kept x))

theorem duty_grows {m n : Manager} {w : Work} (duty : Duty m.self w) (grows : Grows m n) :
    Duty n.self w where
  pending := Course.pending_grows duty.pending grows
  restrained := duty.restrained
  removal := duty.removal
  once := duty.once

theorem kept_beside (kept : v.Kept paced) (x : Course.Move) :
    (v.move (.beside x)).Kept paced := by
  have news := informed_beside (beside_cases kept.restrained x) kept.informed
  exact {
    course := Course.kept_after kept.course _
    restrained := Course.restrained_after kept.restrained _
    duty w waits := duty_grows (kept.duty w waits) (grows_after kept.course _)
    informed lives := (news lives).1
    within pace lives := (news lives).2 _ (lead_nonneg v.duty) (kept.within pace) }

theorem duty_of_event (kept : c.Kept) (event : Detector.Event) :
    ∀ w ∈ (serve c (onDetectorEvent event)).duty,
      Duty (serve c (onDetectorEvent event)).course.manager.self w := by
  intro w waits
  have pending := (kept_serve kept (lawful_onDetectorEvent c.manager event)).2 w waits
  rcases serve_cases c (onDetectorEvent event) with ⟨m, -, same⟩ | ⟨m, effect, next, runs, same⟩
  · rw [same] at waits
    contradiction
  · have restrained := Course.detectorEvent_restrained c.manager event (congrArg Prod.snd runs)
    rw [same] at waits
    obtain rfl := Option.some.inj waits
    rcases onDetectorEvent_cases c.manager event with
      ⟨-, ends⟩ | ⟨d, -, ⟨k, ends, -⟩ | ⟨view, -, ends⟩⟩ <;> cases runs.symm.trans ends
    exact ⟨pending, restrained, fun change turn => ⟨view.crashed, (Effect.changeTurn.inj turn).symm⟩,
      fun _ => turnless_bind (turnless_useTurn _) fun _ => .done ()⟩

/-- The detector handles the event that was the next in the queue. -/
theorem informed_event {event : Detector.Event} {rest : List Detector.Event}
    (informed : Informed c.manager) (queued : c.manager.watch.inbox = event :: rest) :
    let awake := c.posted { c.manager.watch with inbox := rest, phase := .busy }
    Informed (serve awake (onDetectorEvent event)).course.manager ∧
      (Within c.manager 0 → Within (serve awake (onDetectorEvent event)).course.manager
        (lead (serve awake (onDetectorEvent event)).duty)) := by
  intro awake
  obtain ⟨-, watched, watch, view, detector⟩ := onDetectorEvent_fields awake.manager event
  obtain ⟨served, looked, -⟩ := serve_fields awake (onDetectorEvent event)
  refine ⟨informed_serve ?_, fun near => ?_⟩
  · refine informed_handle informed queued watched view detector ?_ (congrArg Actor.inbox watch)
    rw [watch]
    exact ⟨informed.serves.reachable, informed.serves.wanted, by simp [awake, Course.posted]⟩
  · obtain ⟨ahead, level⟩ := within_handle informed queued (served.trans view)
      (looked.trans detector) near
    rcases onDetectorEvent_cases awake.manager event with
      ⟨none, ends⟩ | ⟨d, watching, ⟨k, ends, -, tame⟩ | ⟨made, -, ends⟩⟩
    · have idle : lead (serve awake (onDetectorEvent event)).duty = 0 := by simp [serve, ends, lead]
      rw [idle]
      refine level fun d made watching => ?_
      cases watching.symm.trans none
    · have idle : lead (serve awake (onDetectorEvent event)).duty = 0 := by simp [serve, ends, lead]
      rw [idle]
      refine level fun e made found => ?_
      cases watching.symm.trans found
      exact tame made
    · have waits : lead (serve awake (onDetectorEvent event)).duty = 1 := by
        simp [serve, ends, lead, Effect.isTurn]
      rw [waits]
      exact ahead

theorem lives_of_event {event : Detector.Event}
    (lives : Lives (serve c (onDetectorEvent event)).course.manager) : Lives c.manager := by
  rwa [Lives, (serve_fields _ _).2.2, (onDetectorEvent_fields _ _).1] at lives

/-- An actor that takes nothing up leaves all to the others. -/
theorem kept_idle (kept : v.Kept paced) (free : v.duty = none) {watch : Actor Detector.Event}
    (same : v.course.manager.watch.Serves →
      watch.Serves ∧ watch.inbox = v.course.manager.watch.inbox) :
    Vigil.Kept paced ⟨v.course.posted watch, none⟩ where
  course := kept_posted kept.course watch
  restrained := kept.restrained
  duty := by simp
  informed lives := by
    have informed := kept.informed lives
    obtain ⟨serves, inbox⟩ := same informed.serves
    exact informed_of_same informed rfl rfl rfl serves (congrArg Detector.news inbox)
  within := free ▸ kept.within

/-- An actor that takes up an event goes on with the next. -/
theorem kept_event (kept : v.Kept paced) (free : v.duty = none) {watch : Actor Detector.Event}
    {event : Detector.Event} (took : v.course.manager.watch.Serves → ∃ rest,
      v.course.manager.watch.inbox = event :: rest ∧
        watch = { v.course.manager.watch with inbox := rest, phase := .busy }) :
    (serve (v.course.posted watch) (onDetectorEvent event)).Kept paced := by
  let served := serve (v.course.posted watch) (onDetectorEvent event)
  have awake := kept_posted kept.course watch
  have before : Lives served.course.manager → Lives v.course.manager :=
    lives_of_event (c := v.course.posted watch)
  have handled : Lives v.course.manager → Informed served.course.manager ∧
      (Within v.course.manager 0 → Within served.course.manager (lead served.duty)) := by
    intro lives
    have informed := kept.informed lives
    obtain ⟨rest, queued, rfl⟩ := took informed.serves
    exact informed_event informed queued
  have within := kept.within
  rw [free] at within
  exact {
    course := (kept_serve awake (lawful_onDetectorEvent _ event)).1
    restrained := by
      rw [serve_works]
      exact kept.restrained
    duty := duty_of_event awake event
    informed lives := (handled (before lives)).1
    within pace lives := (handled (before lives)).2 (within pace (before lives)) }

theorem kept_attend (kept : v.Kept paced) (free : v.duty = none) (now : Nat) :
    (attend v.course now).Kept paced := by
  have turns (serves : v.course.manager.watch.Serves) := turn_cases serves now
  unfold attend
  rcases turned : v.course.manager.watch.turn now with ⟨watch, found⟩
  rw [turned] at turns
  have same : (∀ event, found ≠ some (.command event)) → v.course.manager.watch.Serves →
      watch.Serves ∧ watch.inbox = v.course.manager.watch.inbox := by
    intro other serves
    rcases turns serves with ⟨event, rest, -, taken⟩ | ⟨b, turn, taken, ready, inbox, -⟩ <;>
      cases taken
    · exact absurd rfl (other event)
    · exact ⟨ready, inbox⟩
  match found with
  | none => exact kept_idle kept free (same (by simp))
  | some .tick =>
    refine kept_idle kept free fun serves => ?_
    obtain ⟨ready, inbox⟩ := same (by simp) serves
    exact ⟨finish_serves ready, (finish_inbox watch).trans inbox⟩
  | some (.command event) =>
    refine kept_event kept free fun serves => ?_
    rcases turns serves with ⟨event, rest, queued, taken⟩ | ⟨b, turn, taken, -, -, other⟩ <;>
      cases taken
    · exact ⟨rest, queued, rfl⟩
    · exact absurd rfl (other event)

/-- The actor goes on with what it waits with, and what it makes is recorded. -/
theorem kept_record {w : Work} (kept : c.Kept) (pending : w.Pending c.manager.self)
    (answer : w.effect.Answer) :
    ((serve c (w.next answer)).course.record (Course.product c.manager w)).Kept := by
  have served := (kept_serve kept (pending.lawful answer c.manager)).1
  refine Course.kept_record served (fun p => Course.proper_product kept pending) ?_ ?_
  · intro p produced goes
    rw [(serve_fields c _).1]
    exact Course.product_ahead kept pending produced goes answer
  · intro p produced q old goes
    obtain ⟨-, known, -⟩ := Course.product_some produced
    rw [serve_made] at old
    obtain ⟨v, found, newer⟩ := kept.ahead q old goes
    cases found.symm.trans known
    exact newer

theorem exists_change {effect : Effect} (turn : effect.isTurn = true) :
    ∃ change, effect = .changeTurn change := by
  cases effect with
  | changeTurn change => exact ⟨change, rfl⟩
  | _ => contradiction

/-- A turn that is used brings the member up to its detector. -/
theorem within_product {w : Work} {p : Production} (kept : c.Kept) (duty : Duty c.manager.self w)
    (within : Within c.manager 1) (produced : Course.product c.manager w = some p)
    (answer : w.effect.Answer)
    (same : ((w.next answer).run c.manager).1.detector = c.manager.detector) :
    Within ((w.next answer).run c.manager).1 0 := by
  obtain ⟨turn, current, -⟩ := Course.product_some produced
  intro v d known found
  have before := within p.current d current (same ▸ found)
  by_cases goesOn : p.Ends
  · -- No view has a greater number than this one.
    have last : p.current.id = View.lastId := by
      obtain ⟨crashed, removal⟩ := duty.removal _ turn
      exact goesOn.resolve_left (by simp [removal])
    obtain ⟨grown, taken, further⟩ :=
      (run_lawful (duty.pending.lawful answer c.manager)).1.view p.current current
    cases taken.symm.trans known
    have least : p.current.id ≤ v.id := by
      rcases further with rfl | later
      · exact Int32.le_refl _
      · exact Int32.le_of_lt later
    have bound := d.view.id.toInt_lt
    have top : View.lastId.toInt = 2147483647 := rfl
    rw [Int32.le_iff_toInt_le, last] at least
    omega
  · obtain ⟨later, taken, newer⟩ := Course.product_ahead kept duty.pending produced goesOn answer
    cases taken.symm.trans known
    rw [Int32.lt_iff_toInt_lt] at newer
    omega

/-- After a turn the detector is not ahead any more, unless the turn was missed. -/
theorem within_goOn {w : Work} (kept : c.Kept) (duty : Duty c.manager.self w)
    (informed : Informed c.manager) (within : Within c.manager (lead (some w)))
    (answer : w.effect.Answer) (lives : Lives ((w.next answer).run c.manager).1)
    (pace : ∀ change, w.effect = .changeTurn change → c.manager.proposal change = none →
      ¬ Ahead c.manager) : Within ((w.next answer).run c.manager).1 0 := by
  have goesOn := restrained_next c.manager (duty.restrained c.manager) answer
  have piece := (run_restrained goesOn).1
  cases turns : w.effect.isTurn with
  | false =>
    have level : lead (some w) = 0 := by simp [lead, turns]
    exact within_piece informed (level ▸ within) (Int.le_refl 0) piece lives
  | true =>
    have ahead : lead (some w) = 1 := by simp [lead, turns]
    obtain ⟨change, turn⟩ := exists_change turns
    cases produced : Course.product c.manager w with
    | some p =>
      have current := (Course.product_some produced).2.1
      exact within_product kept duty (ahead ▸ within) produced answer
        (piece_detector current piece lives)
    | none =>
      -- A turn that makes no view leaves all as it is, so the detector must not be ahead yet.
      have needless : c.manager.proposal change = none := by
        rw [← Course.product_next turn, produced]
        rfl
      have level := pace change turn needless
      have waits := duty.restrained c.manager
      obtain ⟨effect, next, basis⟩ := w
      have turn : effect = .changeTurn change := turn
      subst turn
      have steady : Steady c.manager ((next answer).run c.manager).1 := by
        cases (run_restrained (restrained_needless c.manager waits needless)).1 with
        | steady goes => exact goes
        | adopts opens => contradiction
      refine within_steady (fun v d known found => ?_) steady lives
      have behind : ¬ v.id < d.view.id := fun newer => level ⟨v, known, d, found, newer⟩
      rw [Int32.lt_iff_toInt_lt] at behind
      omega

/-- Whatever the actor still waits with after a turn, it is not another turn. -/
theorem duty_of_goOn {w : Work} (kept : c.Kept) (duty : Duty c.manager.self w)
    (answer : w.effect.Answer) : ∀ x ∈ (serve c (w.next answer)).duty,
      x.effect.isTurn = false ∧ Duty (serve c (w.next answer)).course.manager.self x := by
  intro x waits
  have pending := (kept_serve kept (duty.pending.lawful answer c.manager)).2 x waits
  have goesOn := restrained_next c.manager (duty.restrained c.manager) answer
  rcases serve_cases c (w.next answer) with ⟨m, -, same⟩ | ⟨m, effect, next, runs, same⟩
  · rw [same] at waits
    contradiction
  · have stops := congrArg Prod.snd runs
    obtain ⟨other, once⟩ := run_turnless (duty.once answer) c.manager stops
    rw [same] at waits
    obtain rfl := Option.some.inj waits
    refine ⟨other, pending, (run_restrained goesOn).2 effect next stops, fun change turn => ?_, once⟩
    have turn : effect = .changeTurn change := turn
    simp [turn, Effect.isTurn] at other

theorem kept_goOn (kept : v.Kept paced) (answer : (effect : Effect) → effect.Answer)
    (pace : paced → ¬ v.Misses (.goOn answer)) : (v.move (.goOn answer)).Kept paced := by
  cases waiting : v.duty with
  | none => simpa only [move, waiting] using kept
  | some w =>
    simp only [move, waiting]
    let p := w.next (answer w.effect)
    let served := serve v.course p
    obtain ⟨view, detector, phase⟩ := serve_fields v.course p
    have duty := kept.duty w waiting
    have later := duty_of_goOn kept.course duty (answer w.effect)
    have goesOn := restrained_next v.course.manager (duty.restrained v.course.manager) (answer w.effect)
    have piece := (run_restrained goesOn).1
    have runs : Lives served.course.manager → Lives (p.run v.course.manager).1 := by
      intro lives
      rwa [Lives, phase] at lives
    have before : Lives served.course.manager → Lives v.course.manager :=
      fun lives => lives_of_piece piece (runs lives)
    have idle : lead served.duty = 0 := by
      cases left : served.duty with
      | none => rfl
      | some x => simp [lead, (later x left).1]
    exact {
      course := kept_record kept.course duty.pending (answer w.effect)
      restrained := by
        change ∀ x ∈ served.course.works, x.Restrained
        rw [serve_works]
        exact kept.restrained
      duty x waits := (later x waits).2
      informed lives :=
        informed_serve (informed_piece (kept.informed (before lives)) piece (runs lives))
      within paced lives := by
        change Within served.course.manager (lead served.duty)
        have level := within_goOn kept.course duty (kept.informed (before lives))
          (waiting ▸ kept.within paced (before lives)) (answer w.effect) (runs lives)
          fun change turn needless ahead =>
            pace paced ⟨w, waiting, change, by rw [turn]; rfl, needless, ahead⟩
        rw [idle]
        intro u d known found
        exact level u d (view ▸ known) (detector ▸ found) }

theorem kept_move (kept : v.Kept paced) (x : Move) (pace : paced → ¬ v.Misses x) :
    (v.move x).Kept paced := by
  cases x with
  | beside x => exact kept_beside kept x
  | attend now =>
    cases free : v.duty with
    | none => simpa only [move, free] using kept_attend kept free now
    | some w => simpa only [move, free] using kept
  | goOn answer => exact kept_goOn kept answer pace

theorem kept_after (kept : v.Kept paced) (moves : List Move) (pace : paced → ¬ v.MissesSome moves) :
    (v.after moves).Kept paced := by
  induction moves generalizing v with
  | nil => exact kept
  | cons x rest ih =>
    exact ih (kept_move kept x fun paced misses => pace paced (Or.inl misses))
      fun paced misses => pace paced (Or.inr misses)

end

/-- Whenever the actor of a running member rests, detector and member have one view if and only if the
detector is not ahead, and so they have in every run in which no removal misses its turn. -/
theorem views_agree_iff (config : Config) (policy : LossPolicy) (self : Member)
    (channel : Option Net.Endpoint) (rota : Detector.Rota) (moves : List Move)
    (running : ((fresh config policy self channel rota).after moves).course.manager.phase = .running)
    (rests : ((fresh config policy self channel rota).after moves).Rests) :
    let m := ((fresh config policy self channel rota).after moves).course.manager
    (m.detector.map (·.view) = m.view ↔ ¬ Ahead m) ∧
      (¬ (fresh config policy self channel rota).MissesSome moves → m.detector.map (·.view) = m.view) := by
  intro m
  have lives : Lives m := by
    rw [Lives, running]
    decide
  obtain ⟨empty, free⟩ := rests
  have kept : ∀ paced : Prop, (paced → ¬ (fresh config policy self channel rota).MissesSome moves) →
      ((fresh config policy self channel rota).after moves).Kept paced :=
    fun paced pace => kept_after (kept_fresh config policy self channel rota) moves pace
  -- What the detector hears holds at any pace, the bound of its lead only at that of the run.
  have informed : Informed m := (kept False False.elim).informed lives
  have agree : m.detector.map (·.view) = m.view ↔ ¬ Ahead m := by
    cases known : m.view with
    | none =>
      rw [(informed.viewless known).1]
      simp [Ahead, known]
    | some v =>
      obtain ⟨d, found, -, hears⟩ := informed.viewed v known
      have stands : d.view = v ∨ v.id < d.view.id := by
        rw [show m.watch.inbox = [] from empty] at hears
        exact (hears.last.resolve_left (by simp [Detector.news])).2
      simp only [found, Option.map_some, Option.some.injEq, Ahead, known, Option.mem_def,
        exists_eq_left']
      constructor
      · rintro rfl
        exact Int32.lt_irrefl
      · exact stands.resolve_right
  refine ⟨agree, fun pace => agree.mpr ?_⟩
  rintro ⟨v, viewed, d, found, ahead⟩
  have near := (kept True fun _ => pace).within trivial lives v d viewed found
  have level : lead none = 0 := rfl
  rw [free, level] at near
  rw [Int32.lt_iff_toInt_lt] at ahead
  omega

/-- Nothing gets through on the direct channel. -/
def refused : (effect : Effect) → effect.Answer
  | .deliver deliveries => deliveries.map fun _ => .error (.config .channelDisabled)
  | effect => Course.granted effect

def founder : Vigil := ⟨Course.founder, none⟩

def hands (id : Int32) (members : List Member) : Move :=
  .beside (.begin (.direct
    { sender := some (.peer 4), payload := .installView ⟨id, .peer 4, members, [], []⟩ }))

def accuses (m : Member) : List Move :=
  [.beside (.begin (.direct { sender := some (.peer 4), payload := .removeMember m "" })), .attend 0]

def fails (m : Member) (request : UInt64) : List Move :=
  [.beside (.begin (.errand (.finalCheck m request))), .beside (.resume 0 refused)]

/-- The final checks of two members have failed, and the detector has removed the first. -/
def condemned : List Move :=
  [.beside (.begin .start), hands 5 [.peer 1, .peer 2, .peer 3, .peer 4, .peer 5], .attend 0] ++
    accuses (.peer 2) ++ accuses (.peer 3) ++ fails (.peer 2) 1 ++ fails (.peer 3) 2 ++ [.attend 0]

/-- Both removals have their turns. -/
def removes : List Move :=
  condemned ++ [.goOn Course.granted, .goOn Course.granted, .attend 0,
    .goOn Course.granted, .goOn Course.granted, .attend 0, .attend 0]

theorem removes_agrees :
    let m := (founder.after removes).course.manager
    m.phase = .running ∧ (founder.after removes).Rests ∧ m.detector.map (·.view) = m.view :=
  ⟨by decide, by decide, (views_agree_iff _ _ _ _ _ removes (by decide) (by decide)).2 (by decide)⟩

/-- Before the turns come, another member hands out a view that is without both already. -/
def overtaken : List Move :=
  condemned ++ [hands 6 [.peer 1, .peer 4, .peer 5, .peer 6],
    .goOn Course.granted, .attend 0, .goOn Course.granted, .attend 0]

theorem overtaken_disagrees :
    let v := founder.after overtaken
    v.course.manager.phase = .running ∧ v.Rests ∧ v.course.works.isEmpty ∧
      v.course.manager.detector.map (·.view) ≠ v.course.manager.view := by
  decide

end Manager.Vigil

end Cohort
