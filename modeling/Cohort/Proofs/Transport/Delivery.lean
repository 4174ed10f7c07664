import Cohort.Proofs.Transport.Keys

/-! What is delivered: what a holder of the secret sealed under the session's key, each record once. A
record under the current key is lost only if its number was accepted or is too old. -/

namespace Cohort.SecureTransport

variable {Key : Type}

/-- What a holder of the secret sealed, under the key of two random values. -/
structure Sealing where
  clientRandom : List UInt8
  serverRandom : List UInt8
  nonce : List UInt8
  header : List UInt8
  body : List UInt8
  deriving DecidableEq

/-- No application record that arrives opens under a key, but what was sealed so. -/
def Unforged (suite : Suite Key) (secret : List UInt8) (sealings : List Sealing)
    (moves : List Move) : Prop :=
  ∀ now peer record, Move.route now peer record ∈ moves →
    record.head? = some Record.application →
    ∀ clientRandom serverRandom body, Record.Randoms clientRandom serverRandom →
      Session.bodyUnder suite (suite.derive secret clientRandom serverRandom) record = some body →
      ⟨clientRandom, serverRandom, Record.applicationNonce (Session.recordNumber record),
        record.take Record.applicationHeaderLength, body⟩ ∈ sealings

/-- What was sealed, if the key is that of an answer. -/
def Opening.sealing (o : Opening Key) (a : Answer) : Sealing where
  clientRandom := a.clientRandom
  serverRandom := a.serverRandom
  nonce := Record.applicationNonce o.number
  header := o.record.take Record.applicationHeaderLength
  body := o.body

/-- Only what was routed waits for a session that a peer opened. -/
def Queued (moves : List Move) (t : SecureTransport Key) : Prop :=
  ∀ n s, t.numbered? n = some s → s.session.role = .server →
    ∀ record ∈ s.queue, ∃ now peer, Move.route now peer record ∈ moves

section
variable {suite : Suite Key} {t : SecureTransport Key} {n : Nat} {s : PeerSession Key}
  {earlier moves : List Move}

theorem mem_queue_served {secret record : List UInt8} {x : Move}
    (waits : record ∈ (served suite secret s x).queue) :
    record ∈ s.queue ∨ ∃ now peer, x = .route now peer record := by
  cases x with
  | route now peer record' =>
    simp only [served] at waits
    split at waits
    · rcases List.mem_append.mp waits with old | new
      · exact Or.inl old
      · rw [List.mem_singleton.mp new]
        exact Or.inr ⟨now, peer, rfl⟩
    · exact Or.inl waits
  | attend now fresh m =>
    simp only [served] at waits
    split at waits
    · split at waits
      · exact Or.inl waits
      · rename_i queued
        rw [queued]
        exact Or.inl (List.mem_cons_of_mem _ waits)
    · exact Or.inl waits
  | send now caller body =>
    simp only [served] at waits
    split at waits <;> exact Or.inl waits
  | _ => exact Or.inl waits

theorem queued_move (orderly : t.Orderly) (queued : Queued earlier t) (x : Move) :
    Queued (earlier ++ [x]) (t.move suite x) := by
  intro n s found server record waits
  have now : (∃ now peer, x = .route now peer record) →
      ∃ now peer, Move.route now peer record ∈ earlier ++ [x] := by
    rintro ⟨now, peer, rfl⟩
    exact ⟨now, peer, by simp⟩
  rcases before_move orderly x found server with gone | ⟨old, known, server', rfl⟩
  · obtain ⟨_, _, _, _, arrives⟩ := born_move orderly gone x found
    exact now (arrives record waits)
  · rcases mem_queue_served waits with before | arrives
    · obtain ⟨at', peer, member⟩ := queued n old known server' record before
      exact ⟨at', peer, List.mem_append_left _ member⟩
    · exact now arrives

/-- Whatever is opened was routed. -/
theorem routed_openings (orderly : t.Orderly) (queued : Queued earlier t) (moves : List Move) :
    ∀ o ∈ t.openingsOf suite moves,
      (∃ now peer, Move.route now peer o.record ∈ earlier ++ moves) ∧
        o.record.head? = some Record.application := by
  induction moves generalizing t earlier with
  | nil => simp [openingsOf]
  | cons x rest ih =>
    intro o member
    rcases List.mem_append.mp member with first | later
    · obtain ⟨s, found, server, _⟩ := opened_of_mem first
      obtain ⟨_, _, s', _, found', opened⟩ := mem_openings first
      rw [found] at found'
      obtain rfl := Option.some.inj found'
      obtain ⟨⟨waiting, head⟩, _, _, data, _⟩ := mem_opens opened
      obtain ⟨now, peer, routed⟩ := queued o.session s found server o.record (by simp [head])
      exact ⟨⟨now, peer, List.mem_append_left _ routed⟩, data⟩
    · have rest' := ih (orderly_move orderly x) (queued_move orderly queued x) o later
      rwa [List.append_assoc, List.singleton_append] at rest'

/-- In every run of a transport, whatever is delivered was sealed by a holder of the secret under the
session's key, and no record is delivered twice. A record sealed under a session's current key waits when
it arrives, and in its turn is delivered, if its number was not accepted under that key and is fewer than
64 behind all that were. -/
theorem delivered_once_and_authentic {secret : List UInt8} {handshakeTimeout idleTimeout : Nat}
    {moves : List Move} {sealings : List Sealing} (ideal : suite.Ideal)
    (drawn : Drawn (answersOf suite { secret, handshakeTimeout, idleTimeout } moves))
    (unforged : Unforged suite secret sealings moves) :
    let start : SecureTransport Key := { secret, handshakeTimeout, idleTimeout }
    let openings := start.openingsOf suite moves
    let t := start.after suite moves
    start.deliveriesOf suite moves = openings.map (fun o => (o.peer, o.body)) ∧
      (openings.map fun o => (o.key, o.number)).Nodup ∧
      (∀ o ∈ openings, ∃ a ∈ start.answersOf suite moves,
        a.session = o.session ∧ a.key suite secret = o.key ∧ o.sealing a ∈ sealings) ∧
      ∀ n s key number body, t.numbered? n = some s → s.session.role = .server →
        s.session.key = some key →
        (∀ now, (t.route suite now s.peer
          (Record.applicationOf suite key number body)).1.numbered? n =
            some { s with queue := s.queue ++ [Record.applicationOf suite key number body] }) ∧
        ∀ rest, s.queue = Record.applicationOf suite key number body :: rest →
          (∀ o ∈ openings, o.key = key →
            o.number ≠ number ∧ o.number.toNat < number.toNat + 64) →
          ∀ now fresh, t.effects suite (.attend now fresh n) = [.deliver s.peer body] := by
  intro start openings t
  have accounted : Accounted suite (start.answersOf suite moves) openings t := by
    have all := accounted_after ideal (accounted_fresh secret handshakeTimeout idleTimeout) moves
    exact all drawn
  have same : t.secret = secret := secret_after moves
  refine ⟨delivered_after suite start moves, accounted.once, ?_, ?_⟩
  · intro o member
    obtain ⟨a, answered, session, key⟩ := accounted.sourced o member
    rw [same] at key
    have empty : Queued [] start := fun n s found => by simp [start, numbered?] at found
    have orderly : start.Orderly := orderly_fresh secret handshakeTimeout idleTimeout
    obtain ⟨⟨now, peer, routed⟩, data⟩ := routed_openings orderly empty moves o member
    have under := accounted.under o member
    have randoms := randoms_of_mem accounted.heard drawn answered
    refine ⟨a, answered, session, key, unforged now peer o.record routed data _ _ o.body randoms ?_⟩
    rw [← key] at under
    exact under
  · intro n s key number body found server keyed
    refine ⟨route_data accounted.orderly found server Session.head_applicationOf, ?_⟩
    intro rest queued unopened now fresh
    have known := accounted.known n s found server
    have isFresh : s.session.replay.isFresh number = true := by
      refine (ReplayWindow.isFresh_iff (known.recalled key keyed) number).mpr ⟨?_, ?_⟩
      · rintro ⟨o, member, own, number'⟩
        exact (unopened o member own).1 number'
      · rintro m ⟨o, member, own, rfl⟩
        exact (unopened o member own).2
    rw [effects_attend_data found server queued Session.head_applicationOf,
      Session.opening?_of_current ideal keyed isFresh]
    rfl

end

/-! ### A peer that starts over -/

theorem unforged_of_genuine {suite : Suite Key} {secret : List UInt8} {sealings : List Sealing}
    {moves : List Move} (ideal : suite.Ideal)
    (genuine : ∀ now peer record, Move.route now peer record ∈ moves →
      record.head? = some Record.application →
      (∀ key, Session.bodyUnder suite key record = none) ∨
        ∃ clientRandom serverRandom number body, Record.Randoms clientRandom serverRandom ∧
          record = Record.applicationOf suite (suite.derive secret clientRandom serverRandom) number
            body ∧
          ⟨clientRandom, serverRandom, Record.applicationNonce number,
            Record.applicationHeader number, body⟩ ∈ sealings) :
    Unforged suite secret sealings moves := by
  intro now peer record routed data clientRandom serverRandom body randoms opens
  rcases genuine now peer record routed data with forged | ⟨c, s, number, sealed, own, rfl, known⟩
  · rw [forged] at opens
    contradiction
  · have under : Session.bodyUnder suite (suite.derive secret c s)
        (Record.applicationOf suite (suite.derive secret c s) number sealed) = some sealed :=
      Session.bodyUnder_applicationOf ideal
    obtain ⟨rfl, rfl⟩ := ideal.derived randoms own (Session.bodyUnder_inj ideal opens under)
    rw [under] at opens
    obtain rfl := Option.some.inj opens
    rwa [Session.recordNumber_applicationOf, Session.take_applicationOf]

def visitor : Net.Endpoint := { ip := .v4 0x0a000002, port := 7000 }

def visitorSealings : List Sealing :=
  [⟨bytesOf 1, bytesOf 11, Record.applicationNonce 0, Record.applicationHeader 0, [1]⟩,
    ⟨bytesOf 2, bytesOf 12, Record.applicationNonce 0, Record.applicationHeader 0, [2]⟩,
    ⟨bytesOf 3, bytesOf 13, Record.applicationNonce 70, Record.applicationHeader 70, [3]⟩,
    ⟨bytesOf 3, bytesOf 13, Record.applicationNonce 7, Record.applicationHeader 7, [4]⟩]

/-- A record is replayed, the peer starts over under a second key, a forged record comes, the session
expires and the peer opens another. -/
def visit : List Move :=
  let first := Record.applicationOf labelSuite (keyWith 1 11) 0 [1]
  let second := Record.applicationOf labelSuite (keyWith 2 12) 0 [2]
  [.route 0 visitor (helloWith 1), .attend 0 (bytesOf 11) 0,
    .route 1 visitor first, .attend 1 [] 0, .route 2 visitor first, .attend 2 [] 0,
    .route 3 visitor (helloWith 2), .attend 3 (bytesOf 12) 0,
    .route 4 visitor second, .attend 4 [] 0, .route 5 visitor first, .attend 5 [] 0,
    .route 6 visitor (Record.applicationHeader 1 ++ bytesOf 9), .attend 6 [] 0,
    .expire 60004 0, .route 60005 visitor (helloWith 3), .attend 60005 (bytesOf 13) 1,
    .route 60006 visitor (Record.applicationOf labelSuite (keyWith 3 13) 70 [3]),
    .attend 60006 [] 1,
    .route 60007 visitor (Record.applicationOf labelSuite (keyWith 3 13) 7 [4])]

theorem visit_unforged : Unforged labelSuite [7] visitorSealings visit := by
  refine unforged_of_genuine labelSuite_ideal fun now peer record routed data => ?_
  simp only [visit, List.mem_cons, List.not_mem_nil, Move.route.injEq, reduceCtorEq, or_false,
    false_or] at routed
  rcases routed with ⟨_, _, rfl⟩ | ⟨_, _, rfl⟩ | ⟨_, _, rfl⟩ | ⟨_, _, rfl⟩ | ⟨_, _, rfl⟩ |
    ⟨_, _, rfl⟩ | ⟨_, _, rfl⟩ | ⟨_, _, rfl⟩ | ⟨_, _, rfl⟩ | ⟨_, _, rfl⟩
  · cases data
  · exact Or.inr ⟨bytesOf 1, bytesOf 11, 0, [1], randoms_bytesOf 1 11, rfl, by decide⟩
  · exact Or.inr ⟨bytesOf 1, bytesOf 11, 0, [1], randoms_bytesOf 1 11, rfl, by decide⟩
  · cases data
  · exact Or.inr ⟨bytesOf 2, bytesOf 12, 0, [2], randoms_bytesOf 2 12, rfl, by decide⟩
  · exact Or.inr ⟨bytesOf 1, bytesOf 11, 0, [1], randoms_bytesOf 1 11, rfl, by decide⟩
  · exact Or.inl fun key => bodyUnder_label_eq_none (by decide) key
  · cases data
  · exact Or.inr ⟨bytesOf 3, bytesOf 13, 70, [3], randoms_bytesOf 3 13, rfl, by decide⟩
  · exact Or.inr ⟨bytesOf 3, bytesOf 13, 7, [4], randoms_bytesOf 3 13, rfl, by decide⟩

/-- What waits at the end is 63 behind, and is delivered. -/
theorem visit_delivers :
    Drawn (labelTransport.answersOf labelSuite visit) ∧
      Unforged labelSuite [7] visitorSealings visit ∧
      labelTransport.deliveriesOf labelSuite visit =
        [(visitor, [1]), (visitor, [2]), (visitor, [3])] ∧
      (labelTransport.after labelSuite visit).effects labelSuite (.attend 60008 [] 1) =
        [.deliver visitor [4]] := by
  have drawn : Drawn (labelTransport.answersOf labelSuite visit) := by
    decide +kernel
  have place : ((labelTransport.after labelSuite visit).numbered? 1).map
      (fun s => (s.peer, s.session.role)) = some (visitor, .server) := by
    decide +kernel
  have waits : ((labelTransport.after labelSuite visit).numbered? 1).map
      (fun s => (s.session.key, s.queue)) =
        some (some (keyWith 3 13), [Record.applicationOf labelSuite (keyWith 3 13) 7 [4]]) := by
    decide +kernel
  obtain ⟨s, found, there⟩ := Option.map_eq_some_iff.mp place
  rw [found] at waits
  obtain ⟨peer, role⟩ := Prod.mk.inj there
  obtain ⟨key, queue⟩ := Prod.mk.inj (Option.some.inj waits)
  obtain ⟨_, _, _, delivers⟩ := delivered_once_and_authentic labelSuite_ideal drawn visit_unforged
  obtain ⟨_, inTurn⟩ := delivers 1 s (keyWith 3 13) 7 [4] found role key
  have last := inTurn [] queue (by decide +kernel) 60008 []
  rw [peer] at last
  exact ⟨drawn, visit_unforged, by decide +kernel, last⟩

end Cohort.SecureTransport
