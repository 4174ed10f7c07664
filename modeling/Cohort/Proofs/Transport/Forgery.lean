import Cohort.Proofs.Transport.Keys

/-! A session that the peer has confirmed outlasts whatever others send in the peer's name. Hellos change
the offered key only, replayed and forged records change nothing, and what the peer itself sealed is still
delivered in its turn. -/

namespace Cohort.SecureTransport

variable {Key : Type}

/-- A record that proves nothing new: it was accepted under the current key before, or opens neither
under that nor under the key on offer. -/
def Stale (suite : Suite Key) (accepted : List (Opening Key)) (s : Session Key)
    (record : List UInt8) : Prop :=
  (∃ o ∈ accepted, s.key = some o.key ∧ o.record = record) ∨
    (∀ key ∈ s.key, Session.bodyUnder suite key record = none) ∧
      ∀ offer ∈ s.offered, Session.bodyUnder suite offer.key record = none

/-- The session's next record is stale, if it is application data. -/
def Unproved (suite : Suite Key) (accepted : List (Opening Key)) (s : PeerSession Key) : Prop :=
  ∀ record ∈ s.queue.head?, record.head? = some Record.application →
    Stale suite accepted s.session record

/-- A move that brings session `n` nothing authentic, and does not end it from this side either. -/
def Harmless (suite : Suite Key) (accepted : List (Opening Key)) (n : Nat) (t : SecureTransport Key)
    (x : Move) : Prop :=
  ∀ s ∈ t.numbered? n, ¬ Ends suite t s x ∧
    match x with
    | .attend _ _ m => m = n → Unproved suite accepted s
    | .send _ caller _ => caller.number ≠ n
    | _ => True

def HarmlessRun (suite : Suite Key) (accepted : List (Opening Key)) (n : Nat)
    (t : SecureTransport Key) : List Move → Prop
  | [] => True
  | x :: rest => Harmless suite accepted n t x ∧ HarmlessRun suite accepted n (t.move suite x) rest

section
variable [DecidableEq Key] (suite : Suite Key) (accepted : List (Opening Key)) (n : Nat)

instance (s : Session Key) (record : List UInt8) : Decidable (Stale suite accepted s record) :=
  inferInstanceAs (Decidable (_ ∨ _ ∧ _))

instance (s : PeerSession Key) : Decidable (Unproved suite accepted s) :=
  inferInstanceAs (Decidable (∀ record ∈ s.queue.head?, _ → _))

instance (t : SecureTransport Key) : (x : Move) → Decidable (Harmless suite accepted n t x)
  | .attend .. | .send .. | .route .. | .call .. | .proceed .. | .expire .. | .forget ..
  | .closeSession .. | .shutdown => inferInstanceAs (Decidable (∀ s ∈ t.numbered? n, _ ∧ _))

instance decidableHarmlessRun (t : SecureTransport Key) :
    (moves : List Move) → Decidable (HarmlessRun suite accepted n t moves)
  | [] => isTrue trivial
  | x :: rest =>
    have := decidableHarmlessRun (t.move suite x) rest
    inferInstanceAs (Decidable (Harmless suite accepted n t x ∧ _))

end

/-- A session of which only the offered key and what waits may be new. -/
structure Intact (s s' : PeerSession Key) : Prop where
  peer : s'.peer = s.peer
  session : s'.session = { s.session with offered := s'.session.offered }

section
variable {suite : Suite Key} {t : SecureTransport Key} {n : Nat} {s s' s'' : PeerSession Key}
  {answers : List Answer} {openings accepted : List (Opening Key)}

theorem Intact.refl (s : PeerSession Key) : Intact s s := ⟨rfl, rfl⟩

theorem Intact.trans (first : Intact s s') (second : Intact s' s'') : Intact s s'' where
  peer := second.peer.trans first.peer
  session := by
    rw [second.session, first.session]

theorem Intact.role (intact : Intact s s') : s'.session.role = s.session.role := by
  rw [intact.session]

theorem Intact.confirmed (intact : Intact s s') :
    s'.session.confirmed = s.session.confirmed := by
  rw [intact.session]

theorem Intact.key (intact : Intact s s') : s'.session.key = s.session.key := by
  rw [intact.session]

theorem Intact.replay (intact : Intact s s') : s'.session.replay = s.session.replay := by
  rw [intact.session]

theorem harmlessRun_append (first second : List Move) :
    HarmlessRun suite accepted n t (first ++ second) ↔
      HarmlessRun suite accepted n t first ∧
        HarmlessRun suite accepted n (t.after suite first) second := by
  induction first generalizing t with
  | nil => simp [HarmlessRun, after]
  | cons x rest ih => simp only [List.cons_append, HarmlessRun, after, ih, and_assoc]

/-! ### One record -/

theorem opening?_of_stale (ideal : suite.Ideal) {secret : List UInt8} {s : Session Key}
    {record : List UInt8} (known : Known suite secret answers openings n s)
    (under : ∀ o ∈ openings, Session.bodyUnder suite o.key o.record = some o.body)
    (within : ∀ o ∈ accepted, o ∈ openings) (stale : Stale suite accepted s record) :
    s.opening? suite record = none := by
  cases opens : s.opening? suite record with
  | none => rfl
  | some found =>
    obtain ⟨key, body⟩ := found
    have result := Session.openBody_opened suite 0 s record
    rw [opens] at result
    have fresh := unopened_of_opened known result
    have body := Session.bodyUnder_of_opening? opens
    generalize (s.openBody suite 0 record).1 = s' at result
    rcases stale with ⟨o, member, keyed, rfl⟩ | ⟨current, offered⟩
    · have same := Session.bodyUnder_inj ideal (under o (within o member)) body
      exact absurd ⟨o, within o member, same, rfl⟩ fresh
    · cases result with
      | current keyed _ opened =>
        rw [current key keyed] at opened
        contradiction
      | offered offers opened =>
        rw [offered _ offers] at opened
        contradiction

/-! ### One move -/

theorem intact_heed {secret fresh record : List UInt8} {now : Nat}
    {s : Session Key} (confirmed : s.confirmed = true)
    (unopened : record.head? = some Record.application → s.opening? suite record = none) :
    s.heed suite secret fresh now record =
      { s with offered := (s.heed suite secret fresh now record).offered } := by
  unfold Session.heed
  split
  · have result := Session.answerHello_answered suite secret fresh s record
    generalize (s.answerHello suite secret fresh record).1 = s' at result
    cases result with
    | known => rfl
    | offered => rfl
    | taken _ _ untrusted =>
      rw [confirmed] at untrusted
      contradiction
  · split
    · rename_i data
      rw [Session.openBody_of_unopened (unopened data)]
    · rfl

theorem queue_served (suite : Suite Key) (secret : List UInt8) (s : PeerSession Key) (x : Move) :
    ∃ arrived, (served suite secret s x).queue =
      s.queue.drop (if attends s.number x then 1 else 0) ++ arrived := by
  cases x with
  | route now peer record =>
    simp only [served, attends]
    split
    · exact ⟨[record], rfl⟩
    · exact ⟨[], by simp⟩
  | attend now fresh m =>
    simp only [served, attends, beq_iff_eq]
    split
    · refine ⟨[], ?_⟩
      split <;> simp_all
    · exact ⟨[], by simp⟩
  | send now caller body =>
    simp only [served, attends]
    split <;> exact ⟨[], by simp⟩
  | _ => exact ⟨[], by simp [served, attends]⟩

/-- What a session opens came from its own peer, and no other session has that peer. -/
theorem peer_ne_of_opened (orderly : t.Orderly) (found : t.numbered? n = some s)
    (server : s.session.role = .server) {x : Move} {o : Opening Key}
    (opened : o ∈ t.openings suite x) (other : o.session ≠ n) : o.peer ≠ s.peer := by
  obtain ⟨sender, known, role, _⟩ := opened_of_mem opened
  obtain ⟨_, _, sender', _, known', opens⟩ := mem_openings opened
  rw [known] at known'
  obtain rfl := Option.some.inj known'
  have peer := (mem_opens opens).2.2.1
  intro same
  have alike := orderly.eq_of_place (mem_of_numbered? known).1 (mem_of_numbered? found).1
    (peer.symm.trans same) (role.trans server.symm)
  refine other ?_
  rw [← (mem_of_numbered? known).2, alike, (mem_of_numbered? found).2]

theorem intact_served (ideal : suite.Ideal) (accounted : Accounted suite answers openings t)
    (within : ∀ o ∈ accepted, o ∈ openings) {x : Move} (found : t.numbered? n = some s)
    (server : s.session.role = .server) (confirmed : s.session.confirmed = true)
    (harmless : Harmless suite accepted n t x) :
    Intact s (served suite t.secret s x) ∧ ∀ o ∈ t.openings suite x, o.session ≠ n := by
  have own := (mem_of_numbered? found).2
  have known := accounted.known n s found server
  obtain ⟨_, quiet⟩ := harmless s found
  cases x with
  | attend now fresh m =>
    dsimp only at quiet
    by_cases same : m = n
    · have stale := quiet same
      have unopened : ∀ record rest, s.queue = record :: rest →
          record.head? = some Record.application → s.session.opening? suite record = none := by
        intro record rest queued data
        refine opening?_of_stale ideal known accounted.under within (stale record ?_ data)
        rw [queued]
        rfl
      constructor
      · simp only [served, own, if_pos same]
        cases queued : s.queue with
        | nil => exact .refl s
        | cons record rest => exact ⟨rfl, intact_heed confirmed (unopened record rest queued)⟩
      · intro o member
        rw [same, openings_attend found] at member
        obtain ⟨⟨rest, queued⟩, _, _, data, opens⟩ := mem_opens member
        rw [unopened o.record rest queued data] at opens
        contradiction
    · constructor
      · simp only [served, own, if_neg same]
        exact .refl s
      · intro o member whose
        obtain ⟨_, _, _, attends, _⟩ := mem_openings member
        injection attends with _ _ number
        exact same (number.trans whose)
  | send now caller body =>
    have elsewhere : ¬ caller.number = s.number := own.symm ▸ quiet
    simp only [served, if_neg elsewhere]
    exact ⟨.refl s, by simp [SecureTransport.openings]⟩
  | route now peer record =>
    simp only [served]
    refine ⟨?_, by simp [SecureTransport.openings]⟩
    split <;> exact ⟨rfl, rfl⟩
  | _ => exact ⟨.refl s, by simp [SecureTransport.openings]⟩

theorem harmless_move (orderly : t.Orderly) {x : Move} (found : t.numbered? n = some s)
    (server : s.session.role = .server) (harmless : Harmless suite accepted n t x) :
    (t.move suite x).numbered? n = some (served suite t.secret s x) := by
  rcases served_move orderly found server x with goes | ⟨ends, _⟩
  · exact goes
  · exact absurd ends (harmless s found).1

/-! ### Runs -/

/-- What some moves without harm leave of a session, and of what waits for it. -/
structure Outlasts (suite : Suite Key) (t : SecureTransport Key) (n : Nat) (s : PeerSession Key)
    (moves : List Move) (s' : PeerSession Key) : Prop where
  found : (t.after suite moves).numbered? n = some s'
  intact : Intact s s'
  undelivered : ∀ d ∈ t.deliveriesOf suite moves, d.1 ≠ s.peer
  queue : moves.countP (attends n) ≤ s.queue.length →
    ∃ arrived, s'.queue = s.queue.drop (moves.countP (attends n)) ++ arrived

theorem queue_outlasts {secret : List UInt8} {x : Move} {rest : List Move} (own : s.number = n)
    (further : rest.countP (attends n) ≤ (served suite secret s x).queue.length →
      ∃ arrived, s'.queue =
        (served suite secret s x).queue.drop (rest.countP (attends n)) ++ arrived)
    (enough : (x :: rest).countP (attends n) ≤ s.queue.length) :
    ∃ arrived, s'.queue = s.queue.drop ((x :: rest).countP (attends n)) ++ arrived := by
  obtain ⟨arrived, goes⟩ := queue_served suite secret s x
  rw [own] at goes
  rw [List.countP_cons] at enough ⊢
  have short : rest.countP (attends n) ≤ (s.queue.drop (if attends n x then 1 else 0)).length := by
    rw [List.length_drop]
    omega
  obtain ⟨arrived', later⟩ := further (by
    rw [goes, List.length_append]
    exact Nat.le_add_right_of_le short)
  refine ⟨arrived ++ arrived', ?_⟩
  rw [later, goes, List.drop_append_of_le_length short, List.drop_drop, List.append_assoc,
    Nat.add_comm]

theorem outlasts (ideal : suite.Ideal) (accounted : Accounted suite answers openings t)
    (within : ∀ o ∈ accepted, o ∈ openings) (found : t.numbered? n = some s)
    (server : s.session.role = .server) (confirmed : s.session.confirmed = true)
    (moves : List Move) (drawn : Drawn (answers ++ t.answersOf suite moves))
    (harmless : HarmlessRun suite accepted n t moves) :
    ∃ s', Outlasts suite t n s moves s' := by
  -- The session stays trusted, so each hello can do no more than put a key on offer.
  induction moves generalizing t s answers openings with
  | nil =>
    refine ⟨s, found, .refl s, by simp [deliveriesOf], fun _ => ⟨[], by simp⟩⟩
  | cons x rest ih =>
    obtain ⟨first, later⟩ := harmless
    have own := (mem_of_numbered? found).2
    simp only [answersOf, ← List.append_assoc] at drawn
    obtain ⟨intact, unopened⟩ := intact_served ideal accounted within found server confirmed first
    have found' := harmless_move accounted.orderly found server first
    have next := accounted_move ideal accounted x (drawn_before drawn)
    obtain ⟨s', more⟩ := ih next (fun o member => List.mem_append_left _ (within o member)) found'
      (intact.role.trans server) (intact.confirmed.trans confirmed) drawn later
    refine ⟨s', more.found, intact.trans more.intact, ?_, ?_⟩
    · intro d member
      simp only [deliveriesOf, delivered_effects, List.mem_append, List.mem_map] at member
      rcases member with ⟨o, opened, rfl⟩ | later
      · exact peer_ne_of_opened accounted.orderly found server opened (unopened o opened)
      · exact intact.peer ▸ more.undelivered d later
    · exact queue_outlasts own more.queue

theorem timeouts_after (suite : Suite Key) (orderly : t.Orderly) (moves : List Move) :
    (t.after suite moves).handshakeTimeout = t.handshakeTimeout ∧
      (t.after suite moves).idleTimeout = t.idleTimeout := by
  induction moves generalizing t with
  | nil => exact ⟨rfl, rfl⟩
  | cons x rest ih =>
    have changes : Changes (fun _ => True) (fun _ => True) t (t.move suite x) := changes_any orderly x
    obtain ⟨handshake, idle⟩ := ih (orderly_move orderly x)
    exact ⟨handshake.trans changes.timeouts.1, idle.trans changes.timeouts.2⟩

theorem expiresAt_of_outlasts (orderly : t.Orderly) (found : t.numbered? n = some s)
    {moves : List Move} (outlasts : Outlasts suite t n s moves s') :
    (t.after suite moves).expiresAt? n = t.expiresAt? n := by
  obtain ⟨handshake, idle⟩ := timeouts_after suite orderly moves
  have instant : s'.session.expiresAt t.handshakeTimeout t.idleTimeout =
      s.session.expiresAt t.handshakeTimeout t.idleTimeout := by
    rw [outlasts.intact.session]
    rfl
  simp only [expiresAt?, handshake, idle, outlasts.found, found, Option.map_some, instant]

/-- What arrives among moves without harm is delivered when what waited before it has had its turn. -/
theorem delivered_in_turn (ideal : suite.Ideal) (accounted : Accounted suite answers openings t)
    (within : ∀ o ∈ accepted, o ∈ openings) (found : t.numbered? n = some s)
    (server : s.session.role = .server) (confirmed : s.session.confirmed = true)
    {first second : List Move} {now : Nat} {key : Key} {number : UInt64} {body : List UInt8}
    (drawn : Drawn (answers ++ t.answersOf suite (first ++
      .route now s.peer (Record.applicationOf suite key number body) :: second)))
    (harmless : HarmlessRun suite accepted n t (first ++
      .route now s.peer (Record.applicationOf suite key number body) :: second))
    (keyed : s.session.key = some key) (fresh : s.session.replay.isFresh number = true)
    (turn : second.countP (attends n) = (t.after suite first).queued n)
    (now' : Nat) (fresh' : List UInt8) :
    (t.after suite (first ++
      .route now s.peer (Record.applicationOf suite key number body) :: second)).effects suite
        (.attend now' fresh' n) = [.deliver s.peer body] := by
  obtain ⟨before, arrives, later⟩ := (harmlessRun_append _ _).mp harmless
  rw [answersOf_append, answersOf, ← List.append_assoc, ← List.append_assoc] at drawn
  rw [after_append, after]
  have drawn₁ := drawn_before (drawn_before drawn)
  obtain ⟨s₁, outlasts₁⟩ := outlasts ideal accounted within found server confirmed first drawn₁ before
  obtain ⟨found₁, intact₁, _, _⟩ := outlasts₁
  have server₁ : s₁.session.role = .server := intact₁.role.trans server
  have accounted₁ := accounted_after ideal accounted first drawn₁
  have found₂ := harmless_move accounted₁.orderly found₁ server₁ arrives
  have waits : served suite (t.after suite first).secret s₁
      (.route now s.peer (Record.applicationOf suite key number body)) =
        { s₁ with queue := s₁.queue ++ [Record.applicationOf suite key number body] } := by
    rw [served, if_pos ⟨intact₁.peer, Or.inr rfl⟩]
  rw [waits] at found₂
  have accounted₂ := accounted_move ideal accounted₁ _ (drawn_before drawn)
  obtain ⟨s₃, outlasts₃⟩ := outlasts ideal accounted₂
    (fun o member => List.mem_append_left _ (List.mem_append_left _ (within o member))) found₂ server₁
    (intact₁.confirmed.trans confirmed) second drawn later
  have length : (t.after suite first).queued n = s₁.queue.length := by
    rw [queued, found₁]
  -- While the record waits, the session attends to just as many as waited before it.
  have passed : second.countP (attends n) = s₁.queue.length := turn.trans length
  obtain ⟨arrived, queue₃⟩ := outlasts₃.queue (by
    rw [passed, List.length_append]
    exact Nat.le_add_right _ _)
  rw [passed, List.drop_left, List.singleton_append] at queue₃
  obtain ⟨found₃, intact₃, _, _⟩ := outlasts₃
  have keyed₃ : s₃.session.key = some key := intact₃.key.trans (intact₁.key.trans keyed)
  have fresh₃ : s₃.session.replay.isFresh number = true := by
    rw [intact₃.replay]
    exact intact₁.replay ▸ fresh
  rw [effects_attend_data found₃ (intact₃.role.trans server₁) queue₃ Session.head_applicationOf,
    Session.opening?_of_current ideal keyed₃ fresh₃, intact₃.peer, intact₁.peer]
  rfl

/-- A confirmed session keeps its key, its window and its expiry through every run of moves that bring
it nothing authentic, and delivers nothing from its peer meanwhile. What was sealed under the current key
with a number that the window held fresh, and was routed amidst those moves, is delivered when what
waited before it has had its turn. -/
theorem forgeries_leave_session_intact {secret : List UInt8} {handshakeTimeout idleTimeout : Nat}
    {moves later : List Move} {n : Nat} {s : PeerSession Key} (ideal : suite.Ideal)
    (drawn : Drawn (answersOf suite { secret, handshakeTimeout, idleTimeout } (moves ++ later)))
    (found : (after suite { secret, handshakeTimeout, idleTimeout } moves).numbered? n = some s)
    (server : s.session.role = .server) (confirmed : s.session.confirmed = true)
    (harmless : HarmlessRun suite (openingsOf suite { secret, handshakeTimeout, idleTimeout } moves) n
      (after suite { secret, handshakeTimeout, idleTimeout } moves) later) :
    let t := after suite { secret, handshakeTimeout, idleTimeout } moves
    let u := t.after suite later
    ∃ s', u.numbered? n = some s' ∧ s'.peer = s.peer ∧
      s'.session = { s.session with offered := s'.session.offered } ∧
      u.expiresAt? n = t.expiresAt? n ∧
      (∀ d ∈ t.deliveriesOf suite later, d.1 ≠ s.peer) ∧
      ∀ first second now key number body,
        later = first ++ .route now s.peer (Record.applicationOf suite key number body) :: second →
        s.session.key = some key → s.session.replay.isFresh number = true →
        second.countP (attends n) = (t.after suite first).queued n →
        ∀ now' fresh, u.effects suite (.attend now' fresh n) = [.deliver s.peer body] := by
  intro t u
  rw [answersOf_append] at drawn
  have accounted : Accounted suite (answersOf suite { secret, handshakeTimeout, idleTimeout } moves)
      (openingsOf suite { secret, handshakeTimeout, idleTimeout } moves) t := by
    exact accounted_after ideal (accounted_fresh secret handshakeTimeout idleTimeout) moves
      (drawn_before drawn)
  obtain ⟨s', outlasts'⟩ := outlasts ideal accounted (fun _ member => member) found server confirmed
    later drawn harmless
  refine ⟨s', outlasts'.found, outlasts'.intact.peer, outlasts'.intact.session,
    expiresAt_of_outlasts accounted.orderly found outlasts', outlasts'.undelivered, ?_⟩
  rintro first second now key number body rfl keyed fresh turn now' fresh'
  exact delivered_in_turn ideal accounted (fun _ member => member) found server confirmed drawn
    harmless keyed fresh turn now' fresh'

end

/-! ### An attack -/

def attacked : Net.Endpoint := { ip := .v4 0x0a000003, port := 7000 }

/-- A peer opens a session and confirms it. -/
def confirmation : List Move :=
  [.route 0 attacked (helloWith 1), .attend 0 (bytesOf 11) 0,
    .route 1 attacked (Record.applicationOf labelSuite (keyWith 1 11) 0 [1]), .attend 1 [] 0]

/-- A forged close, two hellos, a replayed and a forged record, a request for a new key and a record of
no kind; the peer's next record comes while the forged one waits. -/
def attack : List Move :=
  [.route 2 attacked (Record.closeHeader .client ++ List.replicate Record.tagLength 9),
    .route 3 attacked (helloWith 2), .attend 3 (bytesOf 12) 0,
    .route 4 attacked (helloWith 3), .attend 4 (bytesOf 13) 0,
    .route 5 attacked (Record.applicationOf labelSuite (keyWith 1 11) 0 [1]), .attend 5 [] 0,
    .route 6 attacked (Record.applicationHeader 1 ++ bytesOf 9),
    .route 7 attacked [Record.renegotiate], .route 7 attacked [9],
    .route 8 attacked (Record.applicationOf labelSuite (keyWith 1 11) 1 [2]), .attend 8 [] 0]

theorem attack_outlasted :
    Drawn (labelTransport.answersOf labelSuite (confirmation ++ attack)) ∧
      ((labelTransport.after labelSuite confirmation).numbered? 0).map
        (fun s => (s.session.role, s.session.confirmed)) = some (.server, true) ∧
      HarmlessRun labelSuite (labelTransport.openingsOf labelSuite confirmation) 0
        (labelTransport.after labelSuite confirmation) attack ∧
      ((labelTransport.after labelSuite confirmation).after labelSuite attack).effects labelSuite
        (.attend 9 [] 0) = [.deliver attacked [2]] := by
  have drawn : Drawn (labelTransport.answersOf labelSuite (confirmation ++ attack)) := by
    decide +kernel
  have harmless : HarmlessRun labelSuite (labelTransport.openingsOf labelSuite confirmation) 0
      (labelTransport.after labelSuite confirmation) attack := by
    decide +kernel
  have trusted : ((labelTransport.after labelSuite confirmation).numbered? 0).map
      (fun s => (s.session.role, s.session.confirmed)) = some (.server, true) := by
    decide +kernel
  have known : ((labelTransport.after labelSuite confirmation).numbered? 0).map
      (fun s => (s.peer, s.session.key)) = some (attacked, some (keyWith 1 11)) := by
    decide +kernel
  have window : ((labelTransport.after labelSuite confirmation).numbered? 0).map
      (fun s => s.session.replay.isFresh 1) = some true := by
    decide +kernel
  obtain ⟨s, found, same⟩ := Option.map_eq_some_iff.mp trusted
  obtain ⟨server, confirmed⟩ := Prod.mk.inj same
  rw [found] at known window
  obtain ⟨peer, key⟩ := Prod.mk.inj (Option.some.inj known)
  obtain ⟨_, _, _, _, _, _, delivers⟩ := forgeries_leave_session_intact labelSuite_ideal drawn found
    server confirmed harmless
  rw [peer] at delivers
  refine ⟨drawn, trusted, harmless, ?_⟩
  exact delivers (attack.take 10) [.attend 8 [] 0] 8 (keyWith 1 11) 1 [2] rfl key
    (Option.some.inj window) (by decide +kernel) 9 []

end Cohort.SecureTransport
