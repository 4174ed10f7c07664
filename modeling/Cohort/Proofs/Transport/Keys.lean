import Mathlib.Data.List.Nodup
import Cohort.Proofs.Session.Ideal
import Cohort.Proofs.Session.Window
import Cohort.Proofs.Transport.Service

/-! Whose keys are in use. Each key of a session a peer opened comes from an answer of that session; no key
is current twice, so a window that begins anew forgets nothing that its key ever opened. -/

namespace Cohort

variable {Key : Type}

namespace Session

/-- What holds of a server's end: it trusts a key that it has, has answered for it, and offers another
only then. -/
structure Steady (s : Session Key) : Prop where
  keyed : s.confirmed = true → s.key ≠ none
  answered : s.key ≠ none → s.hello ≠ none
  trusted : s.offered ≠ none → s.confirmed = true

variable {s : Session Key}

theorem steady_openedAt (role : Role) (random : List UInt8) (now : Nat) :
    (openedAt role random now : Session Key).Steady :=
  ⟨fun trusted => by simp [openedAt] at trusted, fun keyed => absurd rfl keyed,
    fun offers => absurd rfl offers⟩

theorem steady_answerHello (steady : s.Steady) (suite : Suite Key) (secret fresh record : List UInt8) :
    (s.answerHello suite secret fresh record).1.Steady := by
  have answered := answerHello_answered suite secret fresh s record
  generalize (s.answerHello suite secret fresh record).1 = s' at answered
  cases answered with
  | known => exact steady
  | offered _ _ trusted => exact ⟨steady.keyed, steady.answered, fun _ => trusted⟩
  | taken => exact ⟨fun _ => by simp, fun _ => by simp, steady.trusted⟩

theorem steady_openBody (steady : s.Steady) (suite : Suite Key) (now : Nat) (record : List UInt8) :
    (s.openBody suite now record).1.Steady := by
  have opened := openBody_opened suite now s record
  generalize (s.openBody suite now record).1 = s', s.opening? suite record = found at opened
  cases opened with
  | none => exact steady
  | current keyed => exact ⟨fun _ => by simp [keyed], steady.answered, fun _ => rfl⟩
  | offered offers =>
    have trusted := steady.trusted (by simp [offers])
    exact ⟨fun _ => by simp [promote], fun _ => by simp [promote], fun _ => trusted⟩

end Session

namespace SecureTransport

/-! ### Logs -/

/-- What some moves open, in order. -/
def openingsOf (suite : Suite Key) (t : SecureTransport Key) : List Move → List (Opening Key)
  | [] => []
  | x :: rest => t.openings suite x ++ (t.move suite x).openingsOf suite rest

/-- The hellos that some moves answer with a new key, in order. -/
def answersOf (suite : Suite Key) (t : SecureTransport Key) : List Move → List Answer
  | [] => []
  | x :: rest => t.answered x ++ (t.move suite x).answersOf suite rest

/-- What some moves deliver, in order. -/
def deliveriesOf (suite : Suite Key) (t : SecureTransport Key) :
    List Move → List (Net.Endpoint × List UInt8)
  | [] => []
  | x :: rest =>
    (t.effects suite x).filterMap Effect.delivered? ++ (t.move suite x).deliveriesOf suite rest

/-- The server's random bytes of some answers, as a server draws them: of full length, and none twice. -/
structure Drawn (answers : List Answer) : Prop where
  apart : (answers.map (·.serverRandom)).Nodup
  full : ∀ a ∈ answers, a.serverRandom.length = Record.randomLength

instance (answers : List Answer) : Decidable (Drawn answers) :=
  decidable_of_iff
    ((answers.map (·.serverRandom)).Nodup ∧ ∀ a ∈ answers, a.serverRandom.length = Record.randomLength)
    ⟨fun ⟨apart, full⟩ => ⟨apart, full⟩, fun drawn => ⟨drawn.apart, drawn.full⟩⟩

/-- The hellos that some answers are for are as long as hellos are. -/
def Heard (answers : List Answer) : Prop :=
  ∀ a ∈ answers, a.clientRandom.length = Record.randomLength

/-- What is known of a session's keys from what was answered and opened before. -/
structure Known (suite : Suite Key) (secret : List UInt8) (answers : List Answer)
    (openings : List (Opening Key)) (n : Nat) (s : Session Key) : Prop where
  steady : s.Steady
  current : ∀ key, s.key = some key → ∃ a ∈ answers, a.session = n ∧ a.key suite secret = key
  offered : ∀ offer, s.offered = some offer →
    ∃ a ∈ answers, a.session = n ∧ a.key suite secret = offer.key
  unused : ∀ offer, s.offered = some offer →
    s.key ≠ some offer.key ∧ ∀ o ∈ openings, o.key ≠ offer.key
  recalled : ∀ key, s.key = some key →
    s.replay.Recalls fun number => ∃ o ∈ openings, o.key = key ∧ o.number = number

structure Accounted (suite : Suite Key) (answers : List Answer) (openings : List (Opening Key))
    (t : SecureTransport Key) : Prop where
  orderly : t.Orderly
  heard : Heard answers
  known : ∀ n s, t.numbered? n = some s → s.session.role = .server →
    Known suite t.secret answers openings n s.session
  sourced : ∀ o ∈ openings, ∃ a ∈ answers, a.session = o.session ∧ a.key suite t.secret = o.key
  under : ∀ o ∈ openings, Session.bodyUnder suite o.key o.record = some o.body
  once : (openings.map fun o => (o.key, o.number)).Nodup

section
variable {suite : Suite Key} {t : SecureTransport Key} {n : Nat} {answers : List Answer}
  {openings : List (Opening Key)} {secret : List UInt8} {s : Session Key}

theorem delivered_after (suite : Suite Key) (t : SecureTransport Key) (moves : List Move) :
    t.deliveriesOf suite moves = (t.openingsOf suite moves).map fun o => (o.peer, o.body) := by
  induction moves generalizing t with
  | nil => rfl
  | cons x rest ih =>
    simp only [deliveriesOf, openingsOf, List.map_append, ih, delivered_effects]

theorem answersOf_append (first second : List Move) : t.answersOf suite (first ++ second) =
    t.answersOf suite first ++ (t.after suite first).answersOf suite second := by
  induction first generalizing t with
  | nil => rfl
  | cons x rest ih => simp only [List.cons_append, answersOf, after, ih, List.append_assoc]

/-! ### Keys apart -/

theorem drawn_before {first second : List Answer} (drawn : Drawn (first ++ second)) :
    Drawn first := by
  obtain ⟨apart, full⟩ := drawn
  rw [List.map_append] at apart
  exact ⟨(List.nodup_append.mp apart).1, fun a member => full a (List.mem_append_left _ member)⟩

theorem heard_append {more : List Answer} (heard : Heard answers) (heard' : Heard more) :
    Heard (answers ++ more) := by
  intro a member
  rcases List.mem_append.mp member with old | new
  · exact heard a old
  · exact heard' a new

theorem randoms_of_mem (heard : Heard answers) (drawn : Drawn answers) {a : Answer}
    (member : a ∈ answers) : Record.Randoms a.clientRandom a.serverRandom :=
  ⟨heard a member, drawn.full a member⟩

theorem answer_unique (ideal : suite.Ideal) (heard : Heard answers) (drawn : Drawn answers)
    {a b : Answer} (first : a ∈ answers) (second : b ∈ answers)
    (same : a.key suite secret = b.key suite secret) : a = b := by
  have random := ideal.derived (randoms_of_mem heard drawn first) (randoms_of_mem heard drawn second) same
  exact List.inj_on_of_nodup_map drawn.apart first second random.2

/-- A new answer has a key that no earlier one has. -/
theorem key_of_last (ideal : suite.Ideal) (heard : Heard answers) {answer : Answer}
    (long : answer.clientRandom.length = Record.randomLength) (drawn : Drawn (answers ++ [answer]))
    {a : Answer} (member : a ∈ answers) : a.key suite secret ≠ answer.key suite secret := by
  intro same
  have heard' : Heard (answers ++ [answer]) := heard_append heard (by simpa [Heard] using long)
  have alike := answer_unique ideal heard' drawn (List.mem_append_left _ member) (by simp) same
  have apart := drawn.apart
  rw [List.map_append, List.map_cons, List.map_nil] at apart
  have new := (List.nodup_append.mp apart).2.2 a.serverRandom (List.mem_map_of_mem member)
  exact new answer.serverRandom (by simp) (congrArg Answer.serverRandom alike)

/-- A session that opens a record opens it under a key of its own. -/
theorem key_of_opened (known : Known suite secret answers openings n s) {now : Nat}
    {record : List UInt8} {s' : Session Key} {key : Key} {body : List UInt8}
    (opened : Session.Opened suite now s record s' (some (key, body))) :
    ∃ a ∈ answers, a.session = n ∧ a.key suite secret = key := by
  cases opened with
  | current keyed => exact known.current key keyed
  | offered offers => exact known.offered _ offers

/-- No record is opened twice under one key and number. -/
theorem unopened_of_opened (known : Known suite secret answers openings n s) {now : Nat}
    {record : List UInt8} {s' : Session Key} {key : Key} {body : List UInt8}
    (opened : Session.Opened suite now s record s' (some (key, body))) :
    ¬ ∃ o ∈ openings, o.key = key ∧ o.number = Session.recordNumber record := by
  cases opened with
  | current keyed fresh =>
    exact ((ReplayWindow.isFresh_iff (known.recalled key keyed) _).mp fresh).1
  | offered offers =>
    rintro ⟨o, member, same, _⟩
    exact (known.unused _ offers).2 o member same

theorem Known.more {answers' : List Answer} {openings' : List (Opening Key)}
    (known : Known suite secret answers openings n s)
    (foreign : ∀ o ∈ openings', s.key ≠ some o.key ∧
      ∀ offer, s.offered = some offer → o.key ≠ offer.key) :
    Known suite secret (answers ++ answers') (openings ++ openings') n s where
  steady := known.steady
  current key keyed := by
    obtain ⟨a, member, rest⟩ := known.current key keyed
    exact ⟨a, List.mem_append_left _ member, rest⟩
  offered offer offers := by
    obtain ⟨a, member, rest⟩ := known.offered offer offers
    exact ⟨a, List.mem_append_left _ member, rest⟩
  unused offer offers := by
    refine ⟨(known.unused offer offers).1, fun o member => ?_⟩
    rcases List.mem_append.mp member with old | new
    · exact (known.unused offer offers).2 o old
    · exact (foreign o new).2 offer offers
  recalled key keyed := by
    refine (known.recalled key keyed).congr fun number => ?_
    constructor
    · rintro ⟨o, member, rest⟩
      exact ⟨o, List.mem_append_left _ member, rest⟩
    · rintro ⟨o, member, same, rest⟩
      rcases List.mem_append.mp member with old | new
      · exact ⟨o, old, same, rest⟩
      · exact absurd (same ▸ keyed) (foreign o new).1

/-! ### One session -/

theorem known_openedAt (role : Role) (random : List UInt8) (now : Nat) :
    Known suite secret answers openings n (.openedAt role random now) where
  steady := Session.steady_openedAt role random now
  current key keyed := by simp [Session.openedAt] at keyed
  offered offer offers := by simp [Session.openedAt] at offers
  unused offer offers := by simp [Session.openedAt] at offers
  recalled key keyed := by simp [Session.openedAt] at keyed

theorem known_sealBody (known : Known suite secret answers openings n s) (now : Nat)
    (body : List UInt8) : Known suite secret answers openings n (s.sealBody suite now body).1 := by
  cases keyed : s.key with
  | none => rw [Session.sealBody_unkeyed keyed]; exact known
  | some key =>
    rw [Session.sealBody_keyed keyed]
    exact ⟨⟨known.steady.keyed, known.steady.answered, known.steady.trusted⟩, known.current,
      known.offered, known.unused, known.recalled⟩

/-- A new answer brings a key that nothing was opened with and that the session does not have. -/
theorem known_hello (ideal : suite.Ideal) {fresh : List UInt8} (record : List UInt8)
    (known : Known suite secret answers openings n s)
    (sourced : ∀ o ∈ openings, ∃ a ∈ answers, a.key suite secret = o.key)
    (heard : Heard answers)
    (drawn : s.needsRandom record = true → Drawn (answers ++ [⟨n, record.drop 1, fresh⟩])) :
    Known suite secret
      (answers ++ if s.needsRandom record = true then [⟨n, record.drop 1, fresh⟩] else []) openings n
      (s.answerHello suite secret fresh record).1 := by
  have result := Session.answerHello_answered suite secret fresh s record
  have steady := Session.steady_answerHello known.steady suite secret fresh record
  generalize (s.answerHello suite secret fresh record).1 = s' at result steady
  -- Whatever was opened was opened under the key of an earlier answer, which had other random bytes.
  have unheard : s.needsRandom record = true → ∀ a ∈ answers,
      a.key suite secret ≠ suite.derive secret (record.drop 1) fresh :=
    fun needed a member => key_of_last ideal heard (Session.length_of_needsRandom needed)
      (drawn needed) member
  have more : ∀ extra, Known suite secret (answers ++ extra) openings n s := by
    intro extra
    have same : Known suite secret (answers ++ extra) (openings ++ []) n s :=
      known.more fun o none => by simp at none
    rwa [List.append_nil] at same
  cases result with
  | known old => exact more _
  | @offered random stated unanswered trusted =>
    have needed : s.needsRandom record = true := Session.needsRandom_iff.mpr ⟨random, stated, unanswered⟩
    obtain rfl := (Session.helloRandom?_eq_some stated).1
    rw [if_pos needed]
    refine ⟨steady, (more _).current, ?_, ?_, known.recalled⟩
    · rintro offer offers
      rw [← Option.some.inj offers]
      exact ⟨⟨n, record.drop 1, fresh⟩, by simp, rfl, rfl⟩
    · rintro offer offers
      rw [← Option.some.inj offers]
      constructor
      · intro keyed
        obtain ⟨a, member, _, same⟩ := known.current _ keyed
        exact unheard needed a member same
      · intro o member same
        obtain ⟨a, answered, source⟩ := sourced o member
        exact unheard needed a answered (source.trans same)
  | @taken random stated unanswered untrusted =>
    have needed : s.needsRandom record = true := Session.needsRandom_iff.mpr ⟨random, stated, unanswered⟩
    obtain rfl := (Session.helloRandom?_eq_some stated).1
    rw [if_pos needed]
    refine ⟨steady, ?_, (more _).offered, ?_, ?_⟩
    · rintro key keyed
      rw [← Option.some.inj keyed]
      exact ⟨⟨n, record.drop 1, fresh⟩, by simp, rfl, rfl⟩
    · intro offer offers
      refine ⟨fun keyed => ?_, (known.unused offer offers).2⟩
      obtain ⟨a, member, _, same⟩ := known.offered offer offers
      exact unheard needed a member (same.trans (Option.some.inj keyed).symm)
    · rintro key keyed
      refine ReplayWindow.recalls_fresh.congr fun number => ?_
      rw [false_iff]
      rintro ⟨o, member, same, _⟩
      obtain ⟨a, answered, source⟩ := sourced o member
      exact unheard needed a answered ((source.trans same).trans (Option.some.inj keyed).symm)

/-- What is opened is marked, and a key that was offered takes the window with it. -/
theorem known_data (known : Known suite secret answers openings n s) (now : Nat)
    (peer : Net.Endpoint) (record : List UInt8) :
    Known suite secret answers
      (openings ++ ((s.opening? suite record).map fun (key, body) =>
        (⟨n, peer, key, record, body⟩ : Opening Key)).toList) n
      (s.openBody suite now record).1 := by
  have result := Session.openBody_opened suite now s record
  have steady := Session.steady_openBody known.steady suite now record
  generalize (s.openBody suite now record).1 = s', s.opening? suite record = found at result steady
  cases result with
  | none => simpa using known
  | @current key body keyed fresh opens =>
    refine ⟨steady, known.current, known.offered, ?_, ?_⟩
    · intro offer offers
      have unused := known.unused offer offers
      refine ⟨unused.1, fun o member => ?_⟩
      rcases List.mem_append.mp member with old | new
      · exact unused.2 o old
      · rw [List.mem_singleton.mp new]
        rintro rfl
        exact unused.1 keyed
    · intro key' keyed'
      rw [keyed] at keyed'
      obtain rfl := Option.some.inj keyed'
      refine (ReplayWindow.recalls_mark (known.recalled key keyed) _).congr fun number => ?_
      simp only [Option.map_some, Option.toList_some, List.mem_append, List.mem_singleton,
        or_and_right, exists_or, exists_eq_left, true_and]
      rw [or_comm, eq_comm]
      rfl
  | @offered offer body offers opens =>
    have unused := known.unused offer offers
    refine ⟨steady, ?_, ?_, ?_, ?_⟩
    · rintro key keyed
      rw [← Option.some.inj keyed]
      exact known.offered offer offers
    · rintro offer' offers'
      simp [Session.promote] at offers'
    · rintro offer' offers'
      simp [Session.promote] at offers'
    · rintro key keyed
      obtain rfl := Option.some.inj keyed
      refine (ReplayWindow.recalls_mark ReplayWindow.recalls_fresh _).congr fun number => ?_
      simp only [Option.map_some, Option.toList_some, List.mem_append, List.mem_singleton,
        or_and_right, exists_or, exists_eq_left, true_and, or_false]
      constructor
      · rintro rfl
        exact Or.inr rfl
      · rintro (⟨o, member, same, _⟩ | same)
        · exact absurd same (unused.2 o member)
        · exact same.symm

/-! ### One move -/

theorem mem_opens {s : PeerSession Key} {o : Opening Key} (member : o ∈ opens suite s) :
    (∃ rest, s.queue = o.record :: rest) ∧ o.session = s.number ∧ o.peer = s.peer ∧
      o.record.head? = some Record.application ∧
      s.session.opening? suite o.record = some (o.key, o.body) := by
  unfold opens at member
  split at member
  · simp at member
  · rename_i record rest queued
    split at member
    · rename_i data
      rw [Option.mem_toList, Option.map_eq_some_iff] at member
      obtain ⟨⟨key, body⟩, found, rfl⟩ := member
      exact ⟨⟨rest, queued⟩, rfl, rfl, data.2, found⟩
    · simp at member

/-- What a move opens, it opens in the session that attends. -/
theorem mem_openings {x : Move} {o : Opening Key} (member : o ∈ t.openings suite x) :
    ∃ now fresh s, x = .attend now fresh o.session ∧ t.numbered? o.session = some s ∧
      o ∈ opens suite s := by
  cases x with
  | attend now fresh m =>
    simp only [SecureTransport.openings, List.mem_flatMap, Option.mem_toList] at member
    obtain ⟨s, found, member⟩ := member
    have own := (mem_of_numbered? found).2
    have session := (mem_opens member).2.1
    rw [own] at session
    exact ⟨now, fresh, s, by rw [session], by rw [session, found], member⟩
  | _ => simp [SecureTransport.openings] at member

theorem openings_attend {s : PeerSession Key} (found : t.numbered? n = some s) (now : Nat)
    (fresh : List UInt8) : t.openings suite (.attend now fresh n) = opens suite s := by
  simp only [SecureTransport.openings, found, Option.toList_some, List.flatMap_cons,
    List.flatMap_nil, List.append_nil]

theorem answered_attend {s : PeerSession Key} (found : t.numbered? n = some s) (now : Nat)
    (fresh : List UInt8) : t.answered (.attend now fresh n) = replies fresh s := by
  simp only [SecureTransport.answered, found, Option.toList_some, List.flatMap_cons,
    List.flatMap_nil, List.append_nil]

theorem opens_next (suite : Suite Key) {s : PeerSession Key} {record : List UInt8}
    {rest : List (List UInt8)} (server : s.session.role = .server) (queued : s.queue = record :: rest) :
    opens suite s = if record.head? = some Record.application then
      ((s.session.opening? suite record).map fun (key, body) =>
        (⟨s.number, s.peer, key, record, body⟩ : Opening Key)).toList else [] := by
  simp only [SecureTransport.opens, queued, server, true_and]

theorem replies_next {s : PeerSession Key} {record : List UInt8} {rest : List (List UInt8)}
    (server : s.session.role = .server) (queued : s.queue = record :: rest) (fresh : List UInt8) :
    replies fresh s = if record.head? = some Record.clientHello ∧
      s.session.needsRandom record = true then [⟨s.number, record.drop 1, fresh⟩] else [] := by
  simp only [replies, queued, server, true_and]

theorem heard_answered (t : SecureTransport Key) (x : Move) : Heard (t.answered x) := by
  intro a member
  cases x with
  | attend now fresh m =>
    simp only [SecureTransport.answered, List.mem_flatMap, replies] at member
    obtain ⟨s, -, replied⟩ := member
    split at replied
    · simp at replied
    · split at replied
      · rename_i greeted
        rw [List.mem_singleton.mp replied]
        exact Session.length_of_needsRandom greeted.2.2
      · simp at replied
  | _ => simp [SecureTransport.answered] at member

/-- The session that attends. -/
theorem known_attend (ideal : suite.Ideal) {s : PeerSession Key} {fresh : List UInt8} (now : Nat)
    (known : Known suite secret answers openings s.number s.session)
    (sourced : ∀ o ∈ openings, ∃ a ∈ answers, a.key suite secret = o.key)
    (server : s.session.role = .server) (heard : Heard answers)
    (drawn : Drawn (answers ++ replies fresh s)) :
    Known suite secret (answers ++ replies fresh s) (openings ++ opens suite s) s.number
      (served suite secret s (.attend now fresh s.number)).session := by
  have idle : ∀ {more : List Answer} {opened : List (Opening Key)}, more = [] → opened = [] →
      Known suite secret (answers ++ more) (openings ++ opened) s.number s.session := by
    rintro more opened rfl rfl
    simpa using known
  simp only [served, if_true]
  cases queued : s.queue with
  | nil => exact idle (by rw [replies, queued]) (by rw [opens, queued])
  | cons record rest =>
    dsimp only
    unfold Session.heed
    have opened := opens_next suite server queued
    have replied := replies_next server queued fresh
    split
    · rename_i hello
      have noData : ¬ record.head? = some Record.application := by
        rw [hello]
        decide
      rw [if_neg noData] at opened
      simp only [hello, true_and] at replied
      rw [replied] at drawn ⊢
      rw [opened, List.append_nil]
      refine known_hello ideal record known sourced heard fun needed => ?_
      rwa [if_pos needed] at drawn
    · rename_i noHello
      rw [if_neg fun both => noHello both.1] at replied
      split
      · rename_i data
        rw [if_pos data] at opened
        rw [replied, opened, List.append_nil]
        exact known_data known now s.peer record
      · rename_i noData
        rw [if_neg noData] at opened
        exact idle replied opened

theorem opened_of_mem {x : Move} {o : Opening Key} (member : o ∈ t.openings suite x) :
    ∃ s : PeerSession Key, t.numbered? o.session = some s ∧ s.session.role = .server ∧
      s.session.opening? suite o.record = some (o.key, o.body) := by
  obtain ⟨_, _, s, _, found, opened⟩ := mem_openings member
  obtain ⟨⟨rest, queued⟩, _, _, _, opens⟩ := mem_opens opened
  refine ⟨s, found, ?_, opens⟩
  simp only [SecureTransport.opens, queued] at opened
  split at opened
  · rename_i both
    exact both.1
  · simp at opened

/-- What is opened now has a key of the session that opens it, and that key opened nothing under the
number before. -/
theorem traced_opening (accounted : Accounted suite answers openings t) {x : Move} {o : Opening Key}
    (member : o ∈ t.openings suite x) :
    (∃ a ∈ answers, a.session = o.session ∧ a.key suite t.secret = o.key) ∧
      ¬ ∃ o' ∈ openings, o'.key = o.key ∧ o'.number = o.number := by
  obtain ⟨s, found, server, opens⟩ := opened_of_mem member
  have known := accounted.known o.session s found server
  have result := Session.openBody_opened suite 0 s.session o.record
  rw [opens] at result
  exact ⟨key_of_opened known result, unopened_of_opened known result⟩

/-- A session that another one's opening leaves alone. -/
theorem known_foreign (ideal : suite.Ideal) (accounted : Accounted suite answers openings t)
    (drawn : Drawn answers) {s : PeerSession Key}
    (found : t.numbered? n = some s) (server : s.session.role = .server) (x : Move)
    (other : ∀ o ∈ t.openings suite x, o.session ≠ n) (more : List Answer) :
    Known suite t.secret (answers ++ more) (openings ++ t.openings suite x) n s.session := by
  have known := accounted.known n s found server
  have own : ∀ {o a}, o ∈ t.openings suite x → a ∈ answers → a.session = n →
      o.key ≠ a.key suite t.secret := by
    intro o a member first session same
    obtain ⟨⟨b, second, whose, key⟩, _⟩ := traced_opening accounted member
    have alike := answer_unique ideal accounted.heard drawn first second (same.symm.trans key.symm)
    exact other o member (by rw [← whose, ← alike, session])
  refine known.more fun o member => ⟨fun keyed => ?_, fun offer offers same => ?_⟩
  · obtain ⟨a, first, session, key⟩ := known.current _ keyed
    exact own member first session key.symm
  · obtain ⟨a, first, session, key⟩ := known.offered offer offers
    exact own member first session (same.trans key.symm)

theorem known_served (ideal : suite.Ideal) (accounted : Accounted suite answers openings t)
    {x : Move} (drawn : Drawn (answers ++ t.answered x))
    {s : PeerSession Key} (found : t.numbered? n = some s) (server : s.session.role = .server) :
    Known suite t.secret (answers ++ t.answered x) (openings ++ t.openings suite x) n
      (served suite t.secret s x).session := by
  have own := (mem_of_numbered? found).2
  have known := accounted.known n s found server
  have sourced : ∀ o ∈ openings, ∃ a ∈ answers, a.key suite t.secret = o.key := by
    intro o member
    obtain ⟨a, answered, _, same⟩ := accounted.sourced o member
    exact ⟨a, answered, same⟩
  have idle : Known suite t.secret (answers ++ []) (openings ++ []) n s.session := by
    simpa using known
  cases x with
  | attend now fresh m =>
    by_cases same : m = n
    · obtain rfl : s.number = m := own.trans same.symm
      obtain rfl := same
      rw [answered_attend found] at drawn ⊢
      rw [openings_attend found]
      exact known_attend ideal now known sourced server accounted.heard drawn
    · have still : (served suite t.secret s (.attend now fresh m)).session = s.session := by
        rw [served, own, if_neg same]
      rw [still]
      refine known_foreign ideal accounted (drawn_before drawn) found server _ (fun o member whose => ?_) _
      obtain ⟨_, _, _, attends, _⟩ := mem_openings member
      injection attends with _ _ number
      exact same (number.trans whose)
  | send now caller body =>
    rw [served]
    split
    · exact known_sealBody idle now body
    · exact idle
  | route now peer record =>
    rw [served]
    split <;> exact idle
  | _ => exact idle

theorem openings_short (suite : Suite Key) (t : SecureTransport Key) (x : Move) :
    (t.openings suite x).length ≤ 1 := by
  have opens : ∀ s : PeerSession Key, (opens suite s).length ≤ 1 := by
    intro s
    unfold SecureTransport.opens
    split
    · exact Nat.zero_le _
    · split
      · exact Option.length_toList_le
      · exact Nat.zero_le _
  cases x with
  | attend now fresh m =>
    cases found : t.numbered? m with
    | none => simp [SecureTransport.openings, found]
    | some s =>
      rw [openings_attend found]
      exact opens s
  | _ => exact Nat.zero_le _

theorem accounted_move (ideal : suite.Ideal) (accounted : Accounted suite answers openings t)
    (x : Move) (drawn : Drawn (answers ++ t.answered x)) :
    Accounted suite (answers ++ t.answered x) (openings ++ t.openings suite x)
      (t.move suite x) := by
  have secret : (t.move suite x).secret = t.secret := (goes_move suite 0 t x).secret
  refine ⟨orderly_move accounted.orderly x,
    heard_append accounted.heard (heard_answered t x), ?_, ?_, ?_, ?_⟩
  · intro n s' found' server'
    rw [secret]
    rcases before_move accounted.orderly x found' server' with gone | ⟨s, found, server, rfl⟩
    · obtain ⟨role, random, now, new, _⟩ := born_move accounted.orderly gone x found'
      rw [new]
      exact known_openedAt role random now
    · exact known_served ideal accounted drawn found server
  · intro o member
    rw [secret]
    rcases List.mem_append.mp member with old | new
    · obtain ⟨a, answered, rest⟩ := accounted.sourced o old
      exact ⟨a, List.mem_append_left _ answered, rest⟩
    · obtain ⟨⟨a, answered, rest⟩, _⟩ := traced_opening accounted new
      exact ⟨a, List.mem_append_left _ answered, rest⟩
  · intro o member
    rcases List.mem_append.mp member with old | new
    · exact accounted.under o old
    · obtain ⟨s, _, _, opens⟩ := opened_of_mem new
      exact Session.bodyUnder_of_opening? opens
  · rw [List.map_append]
    refine List.nodup_append.mpr ⟨accounted.once, ?_, ?_⟩
    -- A move opens one record at most.
    · have short := openings_short suite t x
      match t.openings suite x, short with
      | [], _ => exact List.nodup_nil
      | [o], _ => exact List.nodup_singleton _
      | _ :: _ :: _, short => simp at short
    · intro first old second new same
      obtain ⟨o', member', rfl⟩ := List.mem_map.mp old
      obtain ⟨o, member, rfl⟩ := List.mem_map.mp new
      refine (traced_opening accounted member).2 ⟨o', member', ?_⟩
      exact ⟨congrArg Prod.fst same, congrArg Prod.snd same⟩

/-! ### Runs -/

theorem accounted_fresh (secret : List UInt8) (handshakeTimeout idleTimeout : Nat) :
    Accounted suite [] [] { secret, handshakeTimeout, idleTimeout } where
  orderly := orderly_fresh secret handshakeTimeout idleTimeout
  heard a member := by simp at member
  known n s found := by simp [numbered?] at found
  sourced o member := by simp at member
  under o member := by simp at member
  once := List.nodup_nil

theorem accounted_after (ideal : suite.Ideal) (accounted : Accounted suite answers openings t)
    (moves : List Move)
    (drawn : Drawn (answers ++ t.answersOf suite moves)) :
    Accounted suite (answers ++ t.answersOf suite moves) (openings ++ t.openingsOf suite moves)
      (t.after suite moves) := by
  induction moves generalizing t answers openings with
  | nil => simpa [answersOf, openingsOf, after] using accounted
  | cons x rest ih =>
    simp only [answersOf, openingsOf, ← List.append_assoc] at drawn ⊢
    exact ih (accounted_move ideal accounted x (drawn_before drawn)) drawn

end

/-- A transport that seals with labels and has no session yet. -/
def labelTransport : SecureTransport LabelKey :=
  { secret := [7], handshakeTimeout := 4000, idleTimeout := 60000 }

end SecureTransport

end Cohort
