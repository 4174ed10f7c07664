import Cohort.Proofs.Session.Offer
import Cohort.Proofs.Transport.Keys

/-! When a client that was offered a key finds it in force. A session has room for one offer, and the
newest hello has it; so an offer lives until a hello with other random bytes is attended to. -/

namespace Cohort.SecureTransport

variable {Key : Type}

/-- The random bytes that a session's next record states as a hello. -/
def greeted (s : PeerSession Key) : List (List UInt8) :=
  (s.queue.head?.bind Session.greeting?).toList

/-- The random bytes of the hello that session `n` attends to by a move. -/
def greeting (n : Nat) (t : SecureTransport Key) (x : Move) : List (List UInt8) :=
  if attends n x then (t.numbered? n).toList.flatMap greeted else []

/-- The random bytes of the hellos that session `n` attends to by some moves, in order. -/
def greetings (suite : Suite Key) (n : Nat) (t : SecureTransport Key) :
    List Move → List (List UInt8)
  | [] => []
  | x :: rest => greeting n t x ++ greetings suite n (t.move suite x) rest

section
variable {suite : Suite Key} {t : SecureTransport Key} {n : Nat} {s : PeerSession Key}
  {answers : List Answer} {openings : List (Opening Key)} {before : Session Key}
  {offer : OfferedKey Key} {kept : Prop}

/-- A session that is gone is gone for good. -/
theorem lost_after (suite : Suite Key) (below : n < t.nextNumber) (gone : t.numbered? n = none)
    (moves : List Move) : (t.after suite moves).numbered? n = none := by
  induction moves generalizing t with
  | nil => exact gone
  | cons x rest ih =>
    have goes := goes_move suite n t x
    exact ih (Nat.lt_of_lt_of_le below goes.grows) (goes.lost below gone)

/-- The session that attends. -/
theorem awaits_attend (ideal : suite.Ideal) {secret fresh : List UInt8} (now : Nat)
    (known : Known suite secret answers openings s.number s.session)
    (server : s.session.role = .server) (heard : Heard answers)
    (drawn : Drawn (answers ++ replies fresh s))
    (offered : ∃ a ∈ answers, a.key suite secret = offer.key)
    (had : ∀ key, before.key = some key → ∃ a ∈ answers, a.key suite secret = key)
    (answered : before.confirmed = true → before.hello ≠ none)
    (older : ∀ o ∈ opens suite s, before.key = some o.key)
    (awaits : Session.Awaits before offer kept s.session) :
    Session.Awaits before offer (kept ∧ ∀ r ∈ greeted s, Session.Spares before offer r)
      (served suite secret s (.attend now fresh s.number)).session := by
  simp only [served, if_true]
  cases queued : s.queue with
  | nil => exact awaits.congr (by simp [greeted, queued])
  | cons record rest =>
    have same : (∀ r ∈ greeted s, Session.Spares before offer r) ↔
        ∀ r ∈ Session.greeting? record, Session.Spares before offer r := by
      simp only [greeted, queued, List.head?_cons, Option.bind_some, Option.mem_toList]
      exact Iff.rfl
    rw [same]
    refine awaits.heed now answered (fun offer' offers => (known.unused offer' offers).1) ?_ ?_
    · intro hello needed
      rw [replies_next server queued, if_pos ⟨hello, needed⟩] at drawn
      have newer : ∀ a ∈ answers,
          a.key suite secret ≠ (Session.offerTo suite secret (record.drop 1) fresh).key :=
        fun a => key_of_last ideal heard (Session.length_of_needsRandom needed) drawn
      obtain ⟨a, member, key⟩ := offered
      refine ⟨fun alike => newer a member (key.trans alike.symm), fun alike => ?_⟩
      obtain ⟨b, member', key'⟩ := had _ alike
      exact newer b member' key'
    · intro data key body found
      have opened := opens_next suite server queued
      rw [if_pos data, found] at opened
      exact older ⟨s.number, s.peer, key, record, body⟩ (by rw [opened]; simp)

theorem awaits_served (ideal : suite.Ideal) (accounted : Accounted suite answers openings t)
    {x : Move} (drawn : Drawn (answers ++ t.answered x))
    (found : t.numbered? n = some s) (server : s.session.role = .server)
    (offered : ∃ a ∈ answers, a.key suite t.secret = offer.key)
    (had : ∀ key, before.key = some key → ∃ a ∈ answers, a.key suite t.secret = key)
    (answered : before.confirmed = true → before.hello ≠ none)
    (older : ∀ o ∈ t.openings suite x, o.session = n → before.key = some o.key)
    (awaits : Session.Awaits before offer kept s.session) :
    Session.Awaits before offer
      (kept ∧ ∀ r ∈ greeting n t x, Session.Spares before offer r)
      (served suite t.secret s x).session := by
  have own := (mem_of_numbered? found).2
  have idle : attends n x = false → Session.Awaits before offer
      (kept ∧ ∀ r ∈ greeting n t x, Session.Spares before offer r) s.session := by
    intro other
    simpa [greeting, other] using awaits
  cases x with
  | attend now fresh m =>
    by_cases same : m = n
    · obtain rfl : s.number = m := own.trans same.symm
      obtain rfl := same
      rw [answered_attend found] at drawn
      rw [openings_attend found] at older
      have known := accounted.known s.number s found server
      have attended := awaits_attend ideal now known server accounted.heard drawn offered had answered
        (fun o member => older o member (mem_opens member).2.1) awaits
      simpa only [greeting, attends, beq_self_eq_true, if_true, found, Option.toList_some,
        List.flatMap_cons, List.flatMap_nil, List.append_nil] using attended
    · have still : (served suite t.secret s (.attend now fresh m)).session = s.session := by
        rw [served, own, if_neg same]
      rw [still]
      exact idle (by simpa [attends] using same)
  | send now caller body =>
    rw [served]
    split
    · exact (idle rfl).sealBody now body
    · exact idle rfl
  | route now peer record =>
    rw [served]
    split <;> exact idle rfl
  | _ => exact idle rfl

theorem awaits_after (ideal : suite.Ideal) (accounted : Accounted suite answers openings t)
    {moves : List Move} (drawn : Drawn (answers ++ t.answersOf suite moves))
    (found : t.numbered? n = some s) (server : s.session.role = .server)
    (offered : ∃ a ∈ answers, a.key suite t.secret = offer.key)
    (had : ∀ key, before.key = some key → ∃ a ∈ answers, a.key suite t.secret = key)
    (answered : before.confirmed = true → before.hello ≠ none)
    (older : ∀ o ∈ t.openingsOf suite moves, o.session = n → before.key = some o.key)
    (awaits : Session.Awaits before offer kept s.session) {s' : PeerSession Key}
    (survives : (t.after suite moves).numbered? n = some s') :
    s'.peer = s.peer ∧ s'.session.role = .server ∧ Session.Awaits before offer
      (kept ∧ ∀ r ∈ greetings suite n t moves, Session.Spares before offer r) s'.session := by
  -- What shows whether the offer was kept grows with each hello, so it is generalized too.
  induction moves generalizing t s answers openings kept with
  | nil =>
    rw [after, found] at survives
    obtain rfl := Option.some.inj survives
    exact ⟨rfl, server, awaits.congr (by simp [greetings])⟩
  | cons x rest ih =>
    simp only [answersOf, ← List.append_assoc] at drawn
    simp only [openingsOf, List.mem_append] at older
    have secret : (t.move suite x).secret = t.secret := (goes_move suite n t x).secret
    have more : ∀ key, (∃ a ∈ answers, a.key suite t.secret = key) →
        ∃ a ∈ answers ++ t.answered x, a.key suite (t.move suite x).secret = key := by
      rintro key ⟨a, member, same⟩
      exact ⟨a, List.mem_append_left _ member, by rw [secret, same]⟩
    rcases served_move accounted.orderly found server x with goes | ⟨_, gone⟩
    · have next := awaits_served ideal accounted (drawn_before drawn) found server offered had answered
        (fun o member => older o (Or.inl member)) awaits
      obtain ⟨peer, role, last⟩ := ih (accounted_move ideal accounted x (drawn_before drawn)) drawn
        goes ((role_served suite t.secret s x).trans server) (more _ offered)
        (fun key keyed => more key (had key keyed)) (fun o member => older o (Or.inr member)) next
        survives
      refine ⟨peer.trans (peer_served suite t.secret s x), role, last.congr ?_⟩
      simp only [greetings, List.mem_append, or_imp, forall_and, and_assoc]
    -- A session that ended would not be there now: its number is not given again.
    · obtain ⟨member, own⟩ := mem_of_numbered? found
      have below : n < (t.move suite x).nextNumber :=
        Nat.lt_of_lt_of_le (own ▸ accounted.orderly.below s member) (goes_move suite n t x).grows
      rw [after, lost_after suite below gone rest] at survives
      contradiction

/-- An offer, when it is made. -/
theorem effects_attend_hello (known : t.numbered? n = some s) (server : s.session.role = .server)
    {hello : List UInt8} {rest : List (List UInt8)} (queued : s.queue = hello :: rest)
    (greets : hello.head? = some Record.clientHello)
    (needed : s.session.needsRandom hello = true) (now : Nat) (fresh : List UInt8) :
    t.effects suite (.attend now fresh n) =
      [.transmit s.peer (Session.offerTo suite t.secret (hello.drop 1) fresh).hello] := by
  simp only [effects, attend_next known queued]
  rw [process_server (s := { s with queue := rest }) server, if_pos greets]
  dsimp only
  rw [show (t.update n fun s => { s with queue := rest }).secret = t.secret from rfl,
    Session.reply_of_needed needed]
  rfl

theorem answered_hello (found : t.numbered? n = some s) (server : s.session.role = .server)
    {hello : List UInt8} {rest : List (List UInt8)} (queued : s.queue = hello :: rest)
    (greets : hello.head? = some Record.clientHello)
    (needed : s.session.needsRandom hello = true) (now : Nat) (fresh : List UInt8) :
    t.answered (.attend now fresh n) = [⟨n, hello.drop 1, fresh⟩] := by
  rw [answered_attend found, replies_next server queued, if_pos ⟨greets, needed⟩,
    (mem_of_numbered? found).2]

/-- The key of a new answer is not the session's yet, and the offer awaits its client. -/
theorem awaits_answer (ideal : suite.Ideal) (accounted : Accounted suite answers openings t)
    (found : t.numbered? n = some s) (server : s.session.role = .server) {now : Nat}
    {fresh hello : List UInt8} {rest : List (List UInt8)} (queued : s.queue = hello :: rest)
    (greets : hello.head? = some Record.clientHello)
    (needed : s.session.needsRandom hello = true)
    (drawn : Drawn (answers ++ t.answered (.attend now fresh n))) :
    s.session.key ≠ some (Session.offerTo suite t.secret (hello.drop 1) fresh).key ∧
      Session.Awaits s.session (Session.offerTo suite t.secret (hello.drop 1) fresh) True
        (served suite t.secret s (.attend now fresh n)).session := by
  have known := accounted.known n s found server
  rw [answered_hello found server queued greets needed] at drawn
  have newer : s.session.key ≠ some (Session.offerTo suite t.secret (hello.drop 1) fresh).key := by
    intro keyed
    obtain ⟨a, member, _, same⟩ := known.current _ keyed
    exact key_of_last ideal accounted.heard (Session.length_of_needsRandom needed) drawn member same
  refine ⟨newer, ?_⟩
  simp only [served, (mem_of_numbered? found).2, if_true, queued, Session.heed, greets]
  exact Session.awaits_offer needed known.steady.trusted newer

/-- A session answers a hello. Then let it attend to whatever comes, as long as it lasts and opens
nothing but under the key that it had; and let the client that takes the answer seal its first body. When
the session attends to that record, it delivers the body if each hello meanwhile had the random bytes of
this one, or of the confirmed key that the offer stands beside. Otherwise the record is lost. -/
theorem first_record_delivered {secret : List UInt8} {handshakeTimeout idleTimeout : Nat}
    {earlier later : List Move} {n now : Nat} {fresh hello : List UInt8} {s s' : PeerSession Key}
    {rest rest' : List (List UInt8)} {client : Session Key} {at₁ at₂ : Nat} {body record : List UInt8}
    (ideal : suite.Ideal)
    (drawn : Drawn (answersOf suite { secret, handshakeTimeout, idleTimeout }
      (earlier ++ .attend now fresh n :: later)))
    (found : (after suite { secret, handshakeTimeout, idleTimeout } earlier).numbered? n = some s)
    (server : s.session.role = .server) (queued : s.queue = hello :: rest)
    (greets : hello.head? = some Record.clientHello)
    (needed : s.session.needsRandom hello = true)
    (survives : (after suite { secret, handshakeTimeout, idleTimeout }
      (earlier ++ .attend now fresh n :: later)).numbered? n = some s')
    (older : ∀ o ∈ openingsOf suite
        ((after suite { secret, handshakeTimeout, idleTimeout } earlier).move suite
          (.attend now fresh n)) later,
      o.session = n → s.session.key = some o.key)
    (takes : client.takes suite secret
      (Session.offerTo suite secret (hello.drop 1) fresh).hello = true)
    (first : ((client.acceptHello suite secret at₁
      (Session.offerTo suite secret (hello.drop 1) fresh).hello).sealBody suite at₂ body).2 =
        some record)
    (arrives : s'.queue = record :: rest') :
    let t := after suite { secret, handshakeTimeout, idleTimeout } earlier
    let u := t.move suite (.attend now fresh n)
    t.effects suite (.attend now fresh n) =
        [.transmit s.peer (Session.offerTo suite secret (hello.drop 1) fresh).hello] ∧
      ∀ now' fresh', (u.after suite later).effects suite (.attend now' fresh' n) =
        if ∀ r ∈ greetings suite n u later, r = hello.drop 1 ∨
            s.session.confirmed = true ∧ r = s.session.clientRandom then
          [.deliver s.peer body]
        else [] := by
  intro t u
  rw [answersOf_append, answersOf, ← List.append_assoc] at drawn
  rw [after_append, after] at survives
  have same : t.secret = secret := secret_after earlier
  have accounted : Accounted suite (answersOf suite { secret, handshakeTimeout, idleTimeout } earlier)
      (openingsOf suite { secret, handshakeTimeout, idleTimeout } earlier) t :=
    accounted_after ideal (accounted_fresh secret handshakeTimeout idleTimeout) earlier
      (drawn_before (drawn_before drawn))
  have known := accounted.known n s found server
  have once := drawn_before drawn
  obtain ⟨other, awaits⟩ := awaits_answer ideal accounted found server queued greets needed once
  have moved : u.secret = t.secret := (goes_move suite n t _).secret
  have here : u.numbered? n = some (served suite t.secret s (.attend now fresh n)) :=
    served_attend accounted.orderly found server now fresh n
  have role := (role_served suite t.secret s (.attend now fresh n)).trans server
  have answered := answered_hello found server queued greets needed now fresh
  obtain ⟨peer, role', last⟩ := awaits_after ideal (accounted_move ideal accounted _ once) drawn here
    role ⟨⟨n, hello.drop 1, fresh⟩, by rw [answered]; simp, by rw [moved]; rfl⟩
    (fun key keyed => by
      obtain ⟨a, member, _, own⟩ := known.current key keyed
      exact ⟨a, List.mem_append_left _ member, by rw [moved, own]⟩)
    (fun confirmed => known.steady.answered (known.steady.keyed confirmed)) older awaits survives
  have short : (hello.drop 1).length = Record.randomLength := Session.length_of_needsRandom needed
  have long : fresh.length = Record.randomLength :=
    once.full ⟨n, hello.drop 1, fresh⟩ (by rw [answered]; simp)
  rw [same] at other last
  rw [Session.first_record_of_taken short long takes] at first
  obtain rfl := Option.some.inj first
  have kept := last.congr (iff_of_eq (true_and _))
  constructor
  · rw [effects_attend_hello found server queued greets needed, same]
  · intro now' fresh'
    have opens := kept.opening? ideal other 0 body
    rw [effects_attend_data survives role' arrives Session.head_applicationOf, peer, peer_served]
    by_cases spared : ∀ r ∈ greetings suite n u later, r = hello.drop 1 ∨
        s.session.confirmed = true ∧ r = s.session.clientRandom
    · rw [if_pos spared, opens.trans (if_pos spared)]
      rfl
    · rw [if_neg spared, opens.trans (if_neg spared)]
      rfl

end

/-! ### A client that starts over -/

def restarter : Net.Endpoint := { ip := .v4 0x0a000004, port := 7000 }

/-- A client has a confirmed session, and says hello with other random bytes. -/
def restart : List Move :=
  [.route 0 restarter (helloWith 1), .attend 0 (bytesOf 11) 0,
    .route 1 restarter (Record.applicationOf labelSuite (keyWith 1 11) 0 [1]), .attend 1 [] 0,
    .route 2 restarter (helloWith 2)]

/-- Both hellos come again, and a record under the confirmed key, before the first under the new one. -/
def repeated : List Move :=
  [.route 3 restarter (helloWith 2), .attend 3 [] 0, .route 4 restarter (helloWith 1),
    .attend 4 [] 0, .route 5 restarter (Record.applicationOf labelSuite (keyWith 1 11) 1 [3]),
    .attend 5 [] 0, .route 6 restarter (Record.applicationOf labelSuite (keyWith 2 12) 0 [2])]

def restarted : SecureTransport LabelKey :=
  (labelTransport.after labelSuite restart).move labelSuite (.attend 2 (bytesOf 12) 0)

theorem repeated_hellos_spare_offer :
    Drawn (labelTransport.answersOf labelSuite (restart ++ .attend 2 (bytesOf 12) 0 :: repeated)) ∧
      (Session.openedAt .client (bytesOf 2) 0).takes labelSuite [7]
        (Session.offerTo labelSuite [7] (bytesOf 2) (bytesOf 12)).hello = true ∧
      greetings labelSuite 0 restarted repeated = [bytesOf 2, bytesOf 1] ∧
      (restarted.after labelSuite repeated).effects labelSuite (.attend 7 [] 0) =
        [.deliver restarter [2]] := by
  have drawn : Drawn (labelTransport.answersOf labelSuite
      (restart ++ .attend 2 (bytesOf 12) 0 :: repeated)) := by
    decide +kernel
  have takes : (Session.openedAt .client (bytesOf 2) 0).takes labelSuite [7]
      (Session.offerTo labelSuite [7] (bytesOf 2) (bytesOf 12)).hello = true := by
    decide +kernel
  have first : (((Session.openedAt .client (bytesOf 2) 0).acceptHello labelSuite [7] 3
      (Session.offerTo labelSuite [7] (bytesOf 2) (bytesOf 12)).hello).sealBody labelSuite 3 [2]).2 =
        some (Record.applicationOf labelSuite (keyWith 2 12) 0 [2]) := by
    decide +kernel
  have heard : greetings labelSuite 0 restarted repeated = [bytesOf 2, bytesOf 1] := by
    decide +kernel
  have place : ((labelTransport.after labelSuite restart).numbered? 0).map
      (fun s => (s.peer, s.session.role)) = some (restarter, .server) := by
    decide +kernel
  have state : ((labelTransport.after labelSuite restart).numbered? 0).map
      (fun s => (s.queue, s.session.needsRandom (helloWith 2))) = some ([helloWith 2], true) := by
    decide +kernel
  have trust : ((labelTransport.after labelSuite restart).numbered? 0).map
      (fun s => (s.session.confirmed, s.session.clientRandom)) = some (true, bytesOf 1) := by
    decide +kernel
  have keys : ((labelTransport.after labelSuite restart).numbered? 0).map (·.session.key) =
      some (some (keyWith 1 11)) := by
    decide +kernel
  have waits : ((labelTransport.after labelSuite
      (restart ++ .attend 2 (bytesOf 12) 0 :: repeated)).numbered? 0).map (·.queue) =
        some [Record.applicationOf labelSuite (keyWith 2 12) 0 [2]] := by
    decide +kernel
  have opened : ∀ o ∈ openingsOf labelSuite restarted repeated, o.key = keyWith 1 11 := by
    decide +kernel
  obtain ⟨s, found, there⟩ := Option.map_eq_some_iff.mp place
  rw [found] at state trust keys
  obtain ⟨peer, server⟩ := Prod.mk.inj there
  obtain ⟨queued, needed⟩ := Prod.mk.inj (Option.some.inj state)
  obtain ⟨confirmed, random⟩ := Prod.mk.inj (Option.some.inj trust)
  obtain ⟨s', survives, arrives⟩ := Option.map_eq_some_iff.mp waits
  have older : ∀ o ∈ openingsOf labelSuite restarted repeated,
      o.session = 0 → s.session.key = some o.key := by
    intro o member _
    rw [opened o member]
    exact Option.some.inj keys
  have spared : ∀ r ∈ greetings labelSuite 0 restarted repeated, r = (helloWith 2).drop 1 ∨
      s.session.confirmed = true ∧ r = s.session.clientRandom := by
    rw [heard, confirmed, random]
    decide
  obtain ⟨_, delivers⟩ := first_record_delivered labelSuite_ideal drawn found server queued rfl
    needed survives older takes first arrives
  have last := (delivers 7 []).trans (if_pos spared)
  rw [peer] at last
  exact ⟨drawn, takes, heard, last⟩

/-! ### A spoofed hello -/

def targeted : List Move := [.route 0 restarter (helloWith 1)]

/-- A hello in the client's name, and the client's first record. -/
def spoofed : List Move :=
  [.route 1 restarter (helloWith 9), .attend 1 (bytesOf 12) 0,
    .route 2 restarter (Record.applicationOf labelSuite (keyWith 1 11) 0 [1])]

/-- The client takes the answer and seals its first body, nothing is opened meanwhile, the session is
there and attends to the record, and delivers nothing. -/
theorem spoofed_hello_loses_record :
    (Session.openedAt .client (bytesOf 1) 0).takes labelSuite [7]
        (Session.offerTo labelSuite [7] (bytesOf 1) (bytesOf 11)).hello = true ∧
      (((Session.openedAt .client (bytesOf 1) 0).acceptHello labelSuite [7] 1
        (Session.offerTo labelSuite [7] (bytesOf 1) (bytesOf 11)).hello).sealBody labelSuite 2 [1]).2 =
        some (Record.applicationOf labelSuite (keyWith 1 11) 0 [1]) ∧
      (labelTransport.after labelSuite targeted).effects labelSuite (.attend 0 (bytesOf 11) 0) =
        [.transmit restarter (Session.offerTo labelSuite [7] (bytesOf 1) (bytesOf 11)).hello] ∧
      (labelTransport.openingsOf labelSuite
        (targeted ++ .attend 0 (bytesOf 11) 0 :: spoofed)).length = 0 ∧
      ((labelTransport.after labelSuite
        (targeted ++ .attend 0 (bytesOf 11) 0 :: spoofed)).numbered? 0).map (·.queue) =
          some [Record.applicationOf labelSuite (keyWith 1 11) 0 [1]] ∧
      (labelTransport.after labelSuite
        (targeted ++ .attend 0 (bytesOf 11) 0 :: spoofed)).effects labelSuite (.attend 3 [] 0) =
          [] := by
  decide +kernel

end Cohort.SecureTransport
