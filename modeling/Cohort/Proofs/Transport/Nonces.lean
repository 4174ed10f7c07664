import Cohort.Proofs.Transport.Sessions

/-! When a client seals two bodies under one key and number. The numbers of an epoch are safe; what
repeats them is a server hello that is taken again, since a client that was asked for a new key takes
any hello but the one it took last. -/

namespace Cohort.SecureTransport

variable {Key : Type} {suite : Suite Key} {t : SecureTransport Key} {n : Nat}

theorem nonces_lost (below : n < t.nextNumber) (gone : t.numbered? n = none) (moves : List Move) :
    t.nonces suite n moves = [] := by
  induction moves generalizing t with
  | nil => rfl
  | cons x rest ih =>
    have goes := goes_move suite n t x
    have silent : t.nonce? n x = none := by
      cases x <;> simp [nonce?, gone]
    simp only [nonces, silent, Option.toList_none, List.nil_append]
    exact ih (Nat.lt_of_lt_of_le below goes.grows) (goes.lost below gone)

theorem nonces_seen (secret : List UInt8) {s : PeerSession Key} (known : t.numbered? n = some s)
    (x : Move) : s.session.nonces suite secret (t.seen n x) = (t.nonce? n x).toList := by
  have quiet : ∀ moves : List Session.Move, (∀ y ∈ moves, s.session.nonce? y = none) →
      moves.length ≤ 1 → s.session.nonces suite secret moves = [] := by
    intro moves silent short
    match moves with
    | [] => rfl
    | [y] => simp [Session.nonces, silent y (by simp)]
  have heardQuiet : ∀ (now : Nat) (attends : PeerSession Key) (record : List UInt8),
      s.session.nonces suite secret (heard n now attends record) = [] := by
    intro now attends record
    unfold heard
    split <;> exact quiet _ (by simp [Session.nonce?]) (by simp)
  cases x with
  | send now caller body =>
    by_cases own : caller.number = n
    · simp [seen, nonce?, own, known, Session.nonces]
    · simp [seen, nonce?, own, Session.nonces]
  | attend now fresh number =>
    simp only [seen, attended, nonce?, Option.toList_none]
    split
    · rfl
    · split
      · rfl
      · exact heardQuiet now _ _
  | route now peer record =>
    simp only [seen, asked, nonce?, Option.toList_none]
    split
    · split
      · split <;> exact quiet _ (by simp [Session.nonce?]) (by simp)
      · rfl
    · rfl
  | call | proceed | expire | forget | closeSession | shutdown => rfl

/-- What the transport seals in a client session is what the session seals by its own history. -/
theorem nonces_history (apart : t.Apart) {s : PeerSession Key} (known : t.numbered? n = some s)
    (client : s.session.role = .client) (moves : List Move) :
    t.nonces suite n moves = s.session.nonces suite t.secret (t.history suite n moves) := by
  induction moves generalizing t s with
  | nil => rfl
  | cons x rest ih =>
    have goes := goes_move suite n t x
    have present : (t.numbered? n).isSome = true := by simp [known]
    simp only [nonces, history, present, if_true, Session.nonces_append]
    rw [nonces_seen t.secret known x]
    congr 1
    rcases goes.kept apart s known client with gone | ⟨s', found, goesOn⟩
    · obtain ⟨member, own⟩ := mem_of_numbered? known
      have below : n < (t.move suite x).nextNumber :=
        Nat.lt_of_lt_of_le (own ▸ apart.below s member) goes.grows
      have ended : (t.move suite x).history suite n rest = [] := by
        cases rest with
        | nil => rfl
        | cons y rest => simp [history, gone]
      rw [nonces_lost below gone, ended]
      rfl
    · have client' : s'.session.role = .client := by
        rw [goesOn, role_after]
        exact client
      rw [ih (goes.apart apart) found client', goes.secret, goesOn]

/-- In every run of a transport, a client session meets no number twice under one key if and only if no
server's random bytes begin two of its epochs with sealed bodies and no epoch has more bodies than
there are numbers. -/
theorem client_nonces_nodup_iff {secret random : List UInt8} {handshakeTimeout idleTimeout : Nat}
    {earlier : List Move} {s : PeerSession Key} {now : Nat} {n : Nat}
    (injective : ∀ a b, suite.derive secret random a = suite.derive secret random b → a = b)
    (known : (after suite { secret, handshakeTimeout, idleTimeout } earlier).numbered? n = some s)
    (opens : s.session = .openedAt .client random now) (later : List Move) :
    let t := after suite { secret, handshakeTimeout, idleTimeout } earlier
    let epochs := s.session.epochs suite secret (t.history suite n later)
    (t.nonces suite n later).Nodup ↔
      epochs.Pairwise Session.Epoch.Apart ∧ ∀ e ∈ epochs, e.count ≤ UInt64.size := by
  intro t epochs
  have apart : t.Apart := apart_after ⟨by simp, by simp⟩ earlier
  have same : t.secret = secret := secret_after earlier
  rw [nonces_history apart known (by rw [opens]; rfl) later, same]
  refine Session.nodup_nonces_iff ?_ (by rw [opens]; rfl) (by rw [opens]; rfl) _
  rw [opens]
  exact injective

/-! ### A replayed hello -/

/-- A suite in which a key is what it is derived from, and a tag shows the server's random bytes. -/
def plainSuite : Suite (List UInt8 × List UInt8 × List UInt8) where
  derive secret clientRandom serverRandom := (secret, clientRandom, serverRandom)
  encrypt key _ _ body := body ++ key.2.2.take Record.tagLength
  decrypt key _ _ sealed :=
    let body := sealed.take (sealed.length - Record.tagLength)
    if sealed = body ++ key.2.2.take Record.tagLength then some body else none

def server : Net.Endpoint := { ip := .v4 0x7f000001, port := 7000 }

def randomOf (byte : UInt8) : List UInt8 := List.replicate Record.randomLength byte

/-- The server's answer to the client's hello, with random bytes of its own. -/
def helloFrom (byte : UInt8) : List UInt8 :=
  Record.serverHelloOf plainSuite (plainSuite.derive [7] (randomOf 0) (randomOf byte)) (randomOf 0)
    (randomOf byte)

def opening : List Move := [.call 0 (randomOf 0) server]

/-- A client takes a hello, seals a body under it, and is asked for a new key twice. -/
def renegotiated : List Move :=
  let caller : Caller := { peer := server, number := 0, deadline := 4000 }
  [.route 1 server (helloFrom 1), .attend 1 [] 0, .send 2 caller [1],
    .route 3 server [Record.renegotiate], .route 4 server (helloFrom 2), .attend 4 [] 0,
    .route 5 server [Record.renegotiate]]

/-- The first hello comes again, from whoever recorded it, and the client goes on sending. -/
def replayed : List Move :=
  let caller : Caller := { peer := server, number := 0, deadline := 4000 }
  renegotiated ++ [.route 6 server (helloFrom 1), .attend 6 [] 0, .send 7 caller [2]]

theorem renegotiated_nonces_nodup :
    ((after plainSuite { secret := [7], handshakeTimeout := 4000, idleTimeout := 60000 }
      opening).nonces plainSuite 0 renegotiated).Nodup :=
  (client_nonces_nodup_iff (s := ⟨0, server, .openedAt .client (randomOf 0) 0, []⟩) (n := 0)
    (fun _ _ same => congrArg (·.2.2) same) rfl rfl renegotiated).mpr (by decide)

/-- Two different bodies are sealed under one key and number. -/
theorem replayed_nonces_repeat :
    ¬ ((after plainSuite { secret := [7], handshakeTimeout := 4000, idleTimeout := 60000 }
      opening).nonces plainSuite 0 replayed).Nodup := by
  decide

end Cohort.SecureTransport
