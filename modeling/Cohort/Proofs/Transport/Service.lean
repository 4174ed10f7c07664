import Cohort.Proofs.Session.Service
import Cohort.Proofs.Transport.Changes

/-! What the moves of a transport are to a session that a peer opened: records wait in its queue, it
heeds them one by one, and few moves can end it. Only what it opens is ever delivered. -/

namespace Cohort.SecureTransport

variable {Key : Type}

/-- What a move does to a session that a peer opened, unless it ends it. -/
def served (suite : Suite Key) (secret : List UInt8) (s : PeerSession Key) :
    Move → PeerSession Key
  | .route _ peer record =>
    if s.peer = peer ∧
        (record.head? = some Record.clientHello ∨ record.head? = some Record.application) then
      { s with queue := s.queue ++ [record] }
    else s
  | .attend now fresh m =>
    if m = s.number then
      match s.queue with
      | [] => s
      | record :: rest =>
        { s with queue := rest, session := s.session.heed suite secret fresh now record }
    else s
  | .send now caller body =>
    if caller.number = s.number then { s with session := (s.session.sealBody suite now body).1 }
    else s
  | _ => s

/-- Whether a session attends to its next record by a move. -/
def attends (n : Nat) : Move → Bool
  | .attend _ _ m => m == n
  | _ => false

/-- When a move may end such a session. -/
def Ends (suite : Suite Key) (t : SecureTransport Key) (s : PeerSession Key) : Move → Prop
  | .route _ peer record =>
    s.peer = peer ∧ record.head? = some Record.close ∧
      s.session.verifiesClose suite record = true
  | .expire now m =>
    m = s.number ∧ s.session.expiresAt t.handshakeTimeout t.idleTimeout ≤ now
  | .forget peer role => s.peer = peer ∧ s.session.role = role
  | .closeSession peer => s.peer = peer
  | .shutdown => True
  | _ => False

instance (suite : Suite Key) (t : SecureTransport Key) (s : PeerSession Key) :
    (x : Move) → Decidable (Ends suite t s x)
  | .route .. => inferInstanceAs (Decidable (_ ∧ _ ∧ _))
  | .expire .. | .forget .. => inferInstanceAs (Decidable (_ ∧ _))
  | .closeSession peer => inferInstanceAs (Decidable (s.peer = peer))
  | .shutdown => inferInstanceAs (Decidable True)
  | .attend .. | .call .. | .proceed .. | .send .. => inferInstanceAs (Decidable False)

/-- What a transport wants done after a move. -/
def effects (suite : Suite Key) (t : SecureTransport Key) : Move → List Effect
  | .route now peer record => (t.route suite now peer record).2
  | .attend now fresh m => (t.attend suite now fresh m).2.1
  | .proceed now caller => (t.proceed now caller).2.1
  | .expire now m => (t.expire suite now m).2
  | .forget peer role => (t.forget peer role).2
  | .closeSession peer => (t.closeSession suite peer).2
  | .shutdown => (t.shutdown suite).2
  | .call _ _ _ | .send _ _ _ => []

def Effect.delivered? : Effect → Option (Net.Endpoint × List UInt8)
  | .deliver peer body => some (peer, body)
  | _ => none

/-- A body that was delivered, with the key that opened its record. -/
structure Opening (Key : Type) where
  session : Nat
  peer : Net.Endpoint
  key : Key
  record : List UInt8
  body : List UInt8

def Opening.number (x : Opening Key) : UInt64 := Session.recordNumber x.record

/-- A hello that a session answered with a new key. -/
structure Answer where
  session : Nat
  clientRandom : List UInt8
  serverRandom : List UInt8

def Answer.key (suite : Suite Key) (secret : List UInt8) (a : Answer) : Key :=
  suite.derive secret a.clientRandom a.serverRandom

/-- What a session opens when it attends to its next record. -/
def opens (suite : Suite Key) (s : PeerSession Key) : List (Opening Key) :=
  match s.queue with
  | [] => []
  | record :: _ =>
    if s.session.role = .server ∧ record.head? = some Record.application then
      ((s.session.opening? suite record).map fun (key, body) =>
        ⟨s.number, s.peer, key, record, body⟩).toList
    else []

/-- What a session answers with a new key when it attends to its next record. -/
def replies (fresh : List UInt8) (s : PeerSession Key) : List Answer :=
  match s.queue with
  | [] => []
  | record :: _ =>
    if s.session.role = .server ∧ record.head? = some Record.clientHello ∧
        s.session.needsRandom record = true then
      [⟨s.number, record.drop 1, fresh⟩]
    else []

def openings (suite : Suite Key) (t : SecureTransport Key) : Move → List (Opening Key)
  | .attend _ _ m => (t.numbered? m).toList.flatMap (opens suite)
  | _ => []

def answered (t : SecureTransport Key) : Move → List Answer
  | .attend _ fresh m => (t.numbered? m).toList.flatMap (replies fresh)
  | _ => []

section
variable {suite : Suite Key} {t : SecureTransport Key} {n : Nat} {s : PeerSession Key}

/-! ### Attending -/

theorem process_server (server : s.session.role = .server) (suite : Suite Key) (now : Nat)
    (fresh : List UInt8) (t : SecureTransport Key) (record : List UInt8) :
    t.process suite now fresh s record =
      if record.head? = some Record.clientHello then
        (t.setSession s.number (s.session.answerHello suite t.secret fresh record).1,
          (s.session.answerHello suite t.secret fresh record).2.toList.map (.transmit s.peer))
      else if record.head? = some Record.application then
        (t.setSession s.number (s.session.openBody suite now record).1,
          (s.session.openBody suite now record).2.toList.map (.deliver s.peer))
      else (t, []) := by
  unfold process
  rw [server]
  cases record.head? with
  | none => simp
  | some type => simp only [Option.some.injEq]

/-- Processing a record changes at most the session that it is for. -/
theorem process_cases (suite : Suite Key) (now : Nat) (fresh : List UInt8)
    (t : SecureTransport Key) (s : PeerSession Key) (record : List UInt8) :
    (t.process suite now fresh s record).1 = t ∨
      ∃ session, session.role = s.session.role ∧
        (t.process suite now fresh s record).1 = t.setSession s.number session := by
  cases role : s.session.role with
  | server =>
    rw [process_server role]
    split
    · exact Or.inr ⟨_, (Session.role_answerHello ..).trans role, rfl⟩
    · split
      · exact Or.inr ⟨_, (Session.role_openBody ..).trans role, rfl⟩
      · exact Or.inl rfl
  | client =>
    unfold process
    rw [role]
    cases record.head? with
    | none => exact Or.inl rfl
    | some type =>
      dsimp only
      split
      · have kept : (s.session.acceptHello suite t.secret now record).role = s.session.role :=
          role_move t.secret s.session (.hello now record)
        exact Or.inr ⟨_, kept.trans role, rfl⟩
      · exact Or.inl rfl

theorem attend_next (known : t.numbered? n = some s) {record : List UInt8} {rest : List (List UInt8)}
    (queued : s.queue = record :: rest) (suite : Suite Key) (now : Nat) (fresh : List UInt8) :
    t.attend suite now fresh n =
      let taken := (t.update n fun s => { s with queue := rest }).process suite now fresh
        { s with queue := rest } record
      (taken.1, taken.2, true) := by
  unfold attend
  rw [known]
  dsimp only
  rw [queued]

theorem attend_idle (known : t.numbered? n = some s) (queued : s.queue = []) (suite : Suite Key)
    (now : Nat) (fresh : List UInt8) : t.attend suite now fresh n = (t, [], false) := by
  unfold attend
  rw [known]
  dsimp only
  rw [queued]

theorem attend_gone (gone : t.numbered? n = none) (suite : Suite Key) (now : Nat)
    (fresh : List UInt8) : t.attend suite now fresh n = (t, [], false) := by
  unfold attend
  rw [gone]

theorem changes_attend {drops updates : Nat → Prop} {now : Nat} {fresh : List UInt8}
    (allowed : updates n) : Changes drops updates t (t.attend suite now fresh n).1 := by
  cases known : t.numbered? n with
  | none =>
    rw [attend_gone known]
    exact .refl
  | some s =>
    cases queued : s.queue with
    | nil =>
      rw [attend_idle known queued]
      exact .refl
    | cons record rest =>
      have own := (mem_of_numbered? known).2
      have first : Changes drops updates t (t.update n fun s => { s with queue := rest }) :=
        Changes.refl.update n _ (fun _ => rfl) (fun _ _ => ⟨rfl, rfl⟩) allowed
      rw [attend_next known queued]
      dsimp only
      rcases process_cases suite now fresh (t.update n fun s => { s with queue := rest })
        { s with queue := rest } record with same | ⟨session, role, result⟩
      · rw [same]
        exact first
      · rw [result, own]
        refine first.trans (changes_setSession n session allowed fun s' known' => ?_)
        have there := numbered?_update t n n (fun s => { s with queue := rest }) fun _ => rfl
        rw [if_pos rfl, known] at there
        rw [there] at known'
        rw [← Option.some.inj known']
        exact role

theorem attend_server (known : t.numbered? n = some s) (server : s.session.role = .server)
    {record : List UInt8} {rest : List (List UInt8)} (queued : s.queue = record :: rest) (now : Nat)
    (fresh : List UInt8) : (t.attend suite now fresh n).1.numbered? n =
      some { s with
        queue := rest
        session := s.session.heed suite t.secret fresh now record } := by
  obtain rfl := (mem_of_numbered? known).2
  have there := numbered?_update t s.number s.number (fun s => { s with queue := rest })
    fun _ => rfl
  rw [if_pos rfl, known] at there
  have put : ∀ session : Session Key,
      ((t.update s.number fun s => { s with queue := rest }).setSession s.number session).numbered?
        s.number = some { s with queue := rest, session := session } := by
    intro session
    have after := numbered?_update (t.update s.number fun s => { s with queue := rest }) s.number
      s.number (fun s => { s with session := session }) fun _ => rfl
    rw [if_pos rfl, there] at after
    exact after
  rw [attend_next known queued]
  dsimp only
  rw [process_server (s := { s with queue := rest }) server]
  unfold Session.heed
  split
  · exact put _
  · split
    · exact put _
    · exact there

/-! ### Moves -/

theorem number_ne_of_client (orderly : t.Orderly) (known : t.numbered? n = some s)
    (server : s.session.role = .server) {peer : Net.Endpoint} {s' : PeerSession Key}
    (client : t.session? peer .client = some s') : s'.number ≠ n := by
  obtain ⟨member, _, role⟩ := mem_of_session? client
  refine orderly.number_ne known member (Or.inr ?_)
  rw [role, server]
  simp

/-- The peer's records for the server go to this session, and nobody else's do. -/
theorem number_eq_iff (orderly : t.Orderly) (known : t.numbered? n = some s)
    (server : s.session.role = .server) {peer : Net.Endpoint} {s' : PeerSession Key}
    (found : t.session? peer .server = some s') : s'.number = n ↔ s.peer = peer := by
  obtain ⟨member, there, role⟩ := mem_of_session? found
  obtain ⟨own, number⟩ := mem_of_numbered? known
  constructor
  · intro same
    rw [← orderly.eq_of_number known member same]
    exact there
  · intro same
    rw [orderly.eq_of_place member own (there.trans same.symm) (role.trans server.symm)]
    exact number

theorem obtain_number_eq_iff (orderly : t.Orderly) (known : t.numbered? n = some s)
    (server : s.session.role = .server) (now : Nat) (random : List UInt8) (peer : Net.Endpoint) :
    (t.obtain now random peer .server).2 = n ↔ s.peer = peer := by
  obtain ⟨member, own⟩ := mem_of_numbered? known
  unfold obtain
  split
  · rename_i s' found
    exact number_eq_iff orderly known server found
  · rename_i lone
    have below : n < t.nextNumber := own ▸ orderly.below s member
    constructor
    · intro same
      exact absurd same (Nat.ne_of_gt below)
    · intro there
      exact absurd server (place_of_session?_eq_none lone member there)

theorem numbered?_enqueue (known : t.numbered? n = some s) (m : Nat) (record : List UInt8) :
    (t.enqueue m record).1.numbered? n =
      some (if m = n then { s with queue := s.queue ++ [record] } else s) := by
  have after := numbered?_update t m n (fun s => { s with queue := s.queue ++ [record] })
    fun _ => rfl
  rw [known] at after
  unfold enqueue
  dsimp only
  rw [after]
  split <;> rfl

/-- What neither drops nor updates a session leaves it as it is. -/
theorem spared {u : SecureTransport Key} {ends : Prop} (orderly : t.Orderly)
    (known : t.numbered? n = some s) (changes : Changes (fun m => m = n → ends) (· ≠ n) t u) :
    u.numbered? n = some s ∨ ends ∧ u.numbered? n = none := by
  obtain ⟨member, own⟩ := mem_of_numbered? known
  have below : n < t.nextNumber := own ▸ orderly.below s member
  rcases changes.kept below (fun other => other rfl) with same | ⟨dropped, gone⟩
  · exact Or.inl (same.trans known)
  · exact Or.inr ⟨dropped rfl, gone⟩

/-- A hello waits for the session of whom it comes from, be that new. -/
theorem numbered?_greeted (orderly : t.Orderly) (known : t.numbered? n = some s)
    (server : s.session.role = .server) (now : Nat) (random : List UInt8) (peer : Net.Endpoint)
    (record : List UInt8) :
    ((t.obtain now random peer .server).1.enqueue (t.obtain now random peer .server).2
        record).1.numbered? n =
      some (if s.peer = peer then { s with queue := s.queue ++ [record] } else s) := by
  obtain ⟨member, own⟩ := mem_of_numbered? known
  have below : n < t.nextNumber := own ▸ orderly.below s member
  have changes : Changes (fun _ => False) (· ≠ n) t (t.obtain now random peer .server).1 :=
    changes_obtain t now random peer .server
  have there : (t.obtain now random peer .server).1.numbered? n = some s := by
    rcases changes.kept below (fun other => other rfl) with same | ⟨dropped, _⟩
    · exact same.trans known
    · exact dropped.elim
  have waits := numbered?_enqueue there (t.obtain now random peer .server).2 record
  simpa only [obtain_number_eq_iff orderly known server] using waits

theorem numbered?_addressed (orderly : t.Orderly) (known : t.numbered? n = some s)
    (server : s.session.role = .server) {peer : Net.Endpoint} {s' : PeerSession Key}
    (found : t.session? peer .server = some s') (record : List UInt8) :
    (t.enqueue s'.number record).1.numbered? n =
      some (if s.peer = peer then { s with queue := s.queue ++ [record] } else s) := by
  have waits := numbered?_enqueue known s'.number record
  simpa only [number_eq_iff orderly known server found] using waits

theorem served_route (orderly : t.Orderly) (known : t.numbered? n = some s)
    (server : s.session.role = .server) (now : Nat) (peer : Net.Endpoint) (record : List UInt8) :
    (t.route suite now peer record).1.numbered? n =
        some (served suite t.secret s (.route now peer record)) ∨
      Ends suite t s (.route now peer record) ∧
        (t.route suite now peer record).1.numbered? n = none := by
  cases record with
  | nil => exact Or.inl (by simpa [served, route] using known)
  | cons type rest =>
    simp only [served, Ends, List.head?_cons, Option.some.injEq]
    unfold route
    dsimp only
    split
    · rename_i hello
      refine Or.inl ((numbered?_greeted orderly known server now zeros peer _).trans ?_)
      simp [hello]
    · rename_i noHello
      split
      · rename_i answer
        have other : ¬ (type = Record.clientHello ∨ type = Record.application) := by
          rw [answer]
          decide
        rw [if_neg fun both => other both.2]
        split
        · rename_i s' client
          refine Or.inl ((numbered?_enqueue known s'.number _).trans ?_)
          rw [if_neg (number_ne_of_client orderly known server client)]
        · exact Or.inl known
      · split
        · rename_i data
          split
          · rename_i s' found
            refine Or.inl ((numbered?_addressed orderly known server found _).trans ?_)
            simp [data]
          · rename_i lone
            have elsewhere : s.peer ≠ peer := fun there =>
              place_of_session?_eq_none lone (mem_of_numbered? known).1 there server
            exact Or.inl (by simpa [elsewhere] using known)
        · rename_i noData
          have other : ¬ (s.peer = peer ∧ (type = Record.clientHello ∨ type = Record.application)) :=
            fun both => both.2.elim noHello noData
          rw [if_neg other]
          split
          · rename_i closes
            split
            · rename_i sender _
              refine spared orderly known (changes_closedByPeer fun s' found verified own => ?_)
              obtain ⟨member, there, _⟩ := mem_of_session? found
              have same := orderly.eq_of_number known member own
              rw [same] at there verified
              exact ⟨there, closes, verified⟩
            · exact Or.inl known
          · split
            · have stays : Changes (fun m => m = n → False) (· ≠ n) t (t.repeatHello peer).1 :=
                changes_repeatHello orderly fun s' client =>
                  number_ne_of_client orderly known server client
              exact (spared orderly known stays).imp_right fun ended => ended.1.elim
            · exact Or.inl known

/-- Application data from the peer waits for its turn. -/
theorem route_data (orderly : t.Orderly) (known : t.numbered? n = some s)
    (server : s.session.role = .server) {record : List UInt8}
    (data : record.head? = some Record.application) (now : Nat) :
    (t.route suite now s.peer record).1.numbered? n =
      some { s with queue := s.queue ++ [record] } := by
  rcases served_route orderly known server now s.peer record with waits | ⟨⟨_, closes, _⟩, _⟩
  · rwa [served, if_pos ⟨rfl, Or.inr data⟩] at waits
  · rw [data] at closes
    exact absurd closes (by decide)

theorem peer_served (suite : Suite Key) (secret : List UInt8) (s : PeerSession Key) (x : Move) :
    (served suite secret s x).peer = s.peer := by
  unfold served
  repeat' split
  all_goals rfl

theorem role_served (suite : Suite Key) (secret : List UInt8) (s : PeerSession Key) (x : Move) :
    (served suite secret s x).session.role = s.session.role := by
  unfold served
  split
  · split <;> rfl
  · split
    · split
      · rfl
      · exact Session.role_heed ..
    · rfl
  · split
    · exact role_sealBody ..
    · rfl
  · rfl

theorem served_attend (orderly : t.Orderly) (known : t.numbered? n = some s)
    (server : s.session.role = .server) (now : Nat) (fresh : List UInt8) (m : Nat) :
    (t.attend suite now fresh m).1.numbered? n =
      some (served suite t.secret s (.attend now fresh m)) := by
  obtain rfl := (mem_of_numbered? known).2
  simp only [served]
  split
  · rename_i same
    rw [same]
    cases queued : s.queue with
    | nil => rw [attend_idle known queued, known]
    | cons record rest => exact attend_server known server queued now fresh
  · rename_i other
    have changes : Changes (fun m => m = s.number → False) (· ≠ s.number) t
        (t.attend suite now fresh m).1 :=
      changes_attend other
    rcases spared orderly known changes with same | ⟨ended, _⟩
    · exact same
    · exact ended.elim

theorem served_send (orderly : t.Orderly) (known : t.numbered? n = some s) (now : Nat)
    (caller : Caller) (body : List UInt8) : (t.sealBody suite now caller body).1.numbered? n =
      some (served suite t.secret s (.send now caller body)) := by
  obtain rfl := (mem_of_numbered? known).2
  simp only [served]
  split
  · rename_i same
    rcases sealBody_cases suite now t caller body with ⟨idle, keyless⟩ | ⟨s', found, result⟩
    · rw [idle, known, Session.sealBody_unkeyed (keyless s (same ▸ known))]
    · rw [same, known] at found
      obtain rfl := Option.some.inj found
      have put := numbered?_update t s.number s.number
        (fun s' => { s' with session := (s.session.sealBody suite now body).1 }) fun _ => rfl
      rw [if_pos rfl, known] at put
      rw [result]
      exact put
  · rename_i other
    have changes : Changes (fun m => m = s.number → False) (· ≠ s.number) t
        (t.sealBody suite now caller body).1 := changes_send other
    rcases spared orderly known changes with same | ⟨ended, _⟩
    · exact same
    · exact ended.elim

/-- A session that a peer opened meets what the moves are to it, until one of few ends it. -/
theorem served_move (orderly : t.Orderly) (known : t.numbered? n = some s)
    (server : s.session.role = .server) (x : Move) :
    (t.move suite x).numbered? n = some (served suite t.secret s x) ∨
      Ends suite t s x ∧ (t.move suite x).numbered? n = none := by
  have own := (mem_of_numbered? known).2
  have whose : ∀ {peer : Net.Endpoint} {role : Role} {s' : PeerSession Key},
      t.session? peer role = some s' → s'.number = n → s.peer = peer ∧ s.session.role = role := by
    intro peer role s' found same
    obtain ⟨member, place⟩ := mem_of_session? found
    rw [← orderly.eq_of_number known member same]
    exact place
  cases x with
  | route now peer record => exact served_route orderly known server now peer record
  | attend now fresh m => exact Or.inl (served_attend orderly known server now fresh m)
  | send now caller body => exact Or.inl (served_send orderly known now caller body)
  | call now fresh peer => exact spared orderly known (changes_obtain t now fresh peer .client)
  | proceed now caller =>
    refine spared orderly known (changes_proceed fun s' client same => ?_)
    exact number_ne_of_client orderly known server client same
  | expire now m =>
    refine spared orderly known (changes_expire fun s' found late same => ?_)
    rw [same, known] at found
    obtain rfl := Option.some.inj found
    exact ⟨same.trans own.symm, late⟩
  | forget peer role => exact spared orderly known (changes_forget fun s' found => whose found)
  | closeSession peer =>
    refine spared orderly known (changes_closeSession fun s' member there same => ?_)
    have alike := orderly.eq_of_number known member same
    exact alike ▸ there
  | shutdown => exact spared orderly known (changes_shutdown fun _ _ _ => trivial)

/-! ### New sessions -/

/-- Whether a move brings a client's hello. -/
def Greets : Move → Prop
  | .route _ _ record => record.head? = some Record.clientHello
  | _ => False

theorem changes_route {drops updates : Nat → Prop} (orderly : t.Orderly) {now : Nat}
    {peer : Net.Endpoint} {record : List UInt8} (dropped : ∀ m, drops m)
    (updated : ∀ m, Greets (.route now peer record) ∨ (t.numbered? m).isSome → updates m) :
    Changes drops updates t (t.route suite now peer record).1 := by
  have present : ∀ {role : Role} {s : PeerSession Key}, t.session? peer role = some s →
      updates s.number := by
    intro role s found
    refine updated s.number (Or.inr ?_)
    rw [numbered?_of_mem orderly.toApart (mem_of_session? found).1, Option.isSome_some]
  cases record with
  | nil => exact .refl
  | cons type rest =>
    unfold route
    dsimp only
    split
    · rename_i hello
      have greets : Greets (.route now peer (type :: rest)) := by rw [Greets, hello, List.head?_cons]
      have first : Changes drops updates t (t.obtain now zeros peer .server).1 :=
        changes_obtain t now zeros peer .server
      exact first.trans (changes_enqueue _ (updated _ (Or.inl greets)))
    · split
      · split
        · rename_i s found
          exact changes_enqueue _ (present found)
        · exact .refl
      · split
        · split
          · rename_i s found
            exact changes_enqueue _ (present found)
          · exact .refl
        · split
          · split
            · exact changes_closedByPeer fun s _ _ => dropped s.number
            · exact .refl
          · split
            · exact changes_repeatHello orderly fun s found => present found
            · exact .refl

theorem changes_move {drops updates : Nat → Prop} (orderly : t.Orderly) (x : Move)
    (dropped : ∀ m, drops m) (updated : ∀ m, Greets x ∨ (t.numbered? m).isSome → updates m) :
    Changes drops updates t (t.move suite x) := by
  cases x with
  | route now peer record => exact changes_route orderly dropped updated
  | attend now fresh m =>
    cases known : t.numbered? m with
    | none =>
      simp only [move, attend_gone known]
      exact .refl
    | some s => exact changes_attend (updated m (Or.inr (by rw [known, Option.isSome_some])))
  | call now fresh peer => exact changes_obtain t now fresh peer .client
  | proceed now caller => exact changes_proceed fun s _ => dropped s.number
  | send now caller body =>
    cases known : t.numbered? caller.number with
    | none =>
      simp only [move, sealBody, known]
      exact .refl
    | some s => exact changes_send (updated caller.number (Or.inr (by rw [known, Option.isSome_some])))
  | expire now m => exact changes_expire fun _ _ _ => dropped m
  | forget peer role => exact changes_forget fun s _ => dropped s.number
  | closeSession peer => exact changes_closeSession fun s _ _ => dropped s.number
  | shutdown => exact changes_shutdown fun s _ => dropped s.number

theorem changes_any (orderly : t.Orderly) (x : Move) :
    Changes (fun _ => True) (fun _ => True) t (t.move suite x) :=
  changes_move orderly x (fun _ => trivial) fun _ _ => trivial

theorem orderly_move (orderly : t.Orderly) (x : Move) : (t.move suite x).Orderly :=
  (changes_any orderly x).orderly orderly

theorem orderly_after (orderly : t.Orderly) (moves : List Move) :
    (t.after suite moves).Orderly := by
  induction moves generalizing t with
  | nil => exact orderly
  | cons x rest ih => exact ih (orderly_move orderly x)

/-- An old session has the peer and the role that it always had. -/
theorem place_after (orderly : t.Orderly) (below : n < t.nextNumber) {moves : List Move}
    (found : (t.after suite moves).numbered? n = some s) :
    ∃ old, t.numbered? n = some old ∧ s.peer = old.peer ∧ s.session.role = old.session.role := by
  induction moves generalizing t with
  | nil => exact ⟨s, found, rfl, rfl⟩
  | cons x rest ih =>
    have changes : Changes (fun _ => True) (fun _ => True) t (t.move suite x) := changes_any orderly x
    have below' : n < (t.move suite x).nextNumber := Nat.lt_of_lt_of_le below changes.grows
    obtain ⟨mid, known, peer, role⟩ := ih (orderly_move orderly x) below' found
    obtain ⟨old, first, peer', role'⟩ := changes.place below known
    exact ⟨old, first, peer.trans peer', role.trans role'⟩

/-- A session that was not there before a move is new, and only a hello can wait for it. -/
theorem born_move (orderly : t.Orderly) (gone : t.numbered? n = none) (x : Move)
    (found : (t.move suite x).numbered? n = some s) :
    ∃ role random now, s.session = .openedAt role random now ∧
      ∀ record ∈ s.queue, ∃ now peer, x = .route now peer record := by
  by_cases greets : Greets x
  · cases x with
    | route now peer record =>
      cases record with
      | nil => cases greets
      | cons type rest =>
        have hello : type = Record.clientHello := Option.some.inj greets
        have result : t.move suite (.route now peer (type :: rest)) =
            (t.obtain now zeros peer .server).1.update (t.obtain now zeros peer .server).2
              fun s => { s with queue := s.queue ++ [type :: rest] } := by
          simp only [move, route, hello, if_true, enqueue]
        rw [result, numbered?_update _ _ _ (fun s => { s with queue := s.queue ++ [type :: rest] })
          fun _ => rfl] at found
        have opened : ∀ {s : PeerSession Key},
            (t.obtain now zeros peer .server).1.numbered? n = some s →
            ∃ role random now, s.session = .openedAt role random now ∧ s.queue = [] := by
          intro s there
          have changes : Changes (fun _ => False) (fun _ => False) t
              (t.obtain now zeros peer .server).1 := changes_obtain t now zeros peer .server
          exact changes.born id gone there
        split at found
        · obtain ⟨s', there, rfl⟩ := Option.map_eq_some_iff.mp found
          obtain ⟨role, random, created, new, empty⟩ := opened there
          refine ⟨role, random, created, new, fun record waits => ?_⟩
          simp only [empty, List.nil_append, List.mem_singleton] at waits
          exact ⟨now, peer, by rw [waits]⟩
        · obtain ⟨role, random, created, new, empty⟩ := opened found
          exact ⟨role, random, created, new, fun record waits => by simp [empty] at waits⟩
    | _ => exact greets.elim
  · have changes : Changes (fun _ => True) (· ≠ n) t (t.move suite x) := by
      refine changes_move orderly x (fun _ => trivial) fun m updated => ?_
      rcases updated with hello | present
      · exact absurd hello greets
      · rintro rfl
        rw [gone] at present
        contradiction
    obtain ⟨role, random, now, new, empty⟩ := changes.born (fun other => other rfl) gone found
    exact ⟨role, random, now, new, fun record waits => by simp [empty] at waits⟩

/-- A session after a move was there before and met what the move is to it, or is new. -/
theorem before_move (orderly : t.Orderly) (x : Move) (found : (t.move suite x).numbered? n = some s)
    (server : s.session.role = .server) :
    t.numbered? n = none ∨ ∃ old, t.numbered? n = some old ∧ old.session.role = .server ∧
      s = served suite t.secret old x := by
  cases known : t.numbered? n with
  | none => exact Or.inl rfl
  | some old =>
    obtain ⟨member, own⟩ := mem_of_numbered? known
    have below : n < t.nextNumber := own ▸ orderly.below old member
    obtain ⟨before, same, _, role⟩ := (changes_any orderly x).place below found
    rw [known] at same
    obtain rfl := Option.some.inj same
    have server' : old.session.role = .server := role.symm.trans server
    refine Or.inr ⟨old, rfl, server', ?_⟩
    rcases served_move orderly known server' x with goes | ⟨_, ended⟩
    · rw [goes] at found
      exact (Option.some.inj found).symm
    · rw [ended] at found
      contradiction

/-! ### Deliveries -/

def Silent (effects : List Effect) : Prop := effects.filterMap Effect.delivered? = []

theorem Silent.append {first second : List Effect} (quiet : Silent first) (also : Silent second) :
    Silent (first ++ second) := by
  unfold Silent at *
  rw [List.filterMap_append, quiet, also, List.append_nil]

theorem silent_transmit (peer : Net.Endpoint) (records : List (List UInt8)) :
    Silent (records.map (.transmit peer)) := by
  unfold Silent
  rw [List.filterMap_map]
  exact List.filterMap_eq_nil_iff.mpr fun _ _ => rfl

theorem silent_close (suite : Suite Key) (t : SecureTransport Key) (s : PeerSession Key) :
    Silent (t.close suite s).2 := silent_transmit s.peer _

theorem silent_closeSession (suite : Suite Key) (t : SecureTransport Key) (peer : Net.Endpoint) :
    Silent (t.closeSession suite peer).2 := by
  have closes (u : SecureTransport Key) (role : Role) :
      Silent (closeRole suite peer u role).2 := by
    unfold closeRole
    cases u.session? peer role with
    | some s => exact silent_close suite u s
    | none => rfl
  rw [closeSession_eq]
  exact (closes t .client).append (closes _ .server)

theorem silent_closeSessions (suite : Suite Key) (t : SecureTransport Key)
    (peers : List Net.Endpoint) : Silent (t.closeSessions suite peers).2 := by
  induction peers generalizing t with
  | nil => rfl
  | cons peer rest ih => exact (silent_closeSession suite t peer).append (ih _)

theorem silent_forget (t : SecureTransport Key) (peer : Net.Endpoint) (role : Role) :
    Silent (t.forget peer role).2 := by
  unfold forget
  split <;> rfl

theorem silent_proceed (t : SecureTransport Key) (now : Nat) (caller : Caller) :
    Silent (t.proceed now caller).2.1 := by
  have fails : Silent (t.forget caller.peer .client).2 := silent_forget t caller.peer .client
  cases reached : t.handshakeOf caller.number with
  | established => simp only [proceed, reached, Silent, List.filterMap_nil]
  | failed failure => simpa only [proceed, reached] using fails
  | pending =>
    simp only [proceed, reached]
    split
    · exact fails
    · split
      · rfl
      · split <;> rfl

theorem silent_route (suite : Suite Key) (now : Nat) (t : SecureTransport Key) (peer : Net.Endpoint)
    (record : List UInt8) : Silent (t.route suite now peer record).2 := by
  cases record with
  | nil => rfl
  | cons type rest =>
    unfold route
    dsimp only
    split
    · rfl
    · split
      · split <;> rfl
      · split
        · split <;> rfl
        · split
          · split
            · unfold closedByPeer
              split
              · rfl
              · split <;> rfl
            · rfl
          · split
            · unfold repeatHello
              split
              · rfl
              · split <;> rfl
            · rfl

theorem delivered_process (suite : Suite Key) (now : Nat) (fresh : List UInt8)
    (t : SecureTransport Key) (s : PeerSession Key) {record : List UInt8} {rest : List (List UInt8)}
    (queued : s.queue = record :: rest) :
    (t.process suite now fresh { s with queue := rest } record).2.filterMap Effect.delivered? =
      (opens suite s).map fun o => (o.peer, o.body) := by
  unfold opens
  rw [queued]
  dsimp only
  cases role : s.session.role with
  | server =>
    rw [process_server (s := { s with queue := rest }) role]
    by_cases data : record.head? = some Record.application
    · have noHello : ¬ record.head? = some Record.clientHello := by
        rw [data]
        decide
      rw [if_neg noHello, if_pos data, if_pos ⟨rfl, data⟩]
      dsimp only
      rw [Session.openBody_body]
      cases s.session.opening? suite record <;> rfl
    · have unopened : ¬ (Role.server = Role.server ∧ record.head? = some Record.application) :=
        fun both => data both.2
      rw [if_neg data, if_neg unopened]
      split
      · exact silent_transmit _ _
      · rfl
  | client =>
    rw [if_neg fun both => absurd both.1 (by decide)]
    unfold process
    rw [role]
    cases record.head? with
    | none => rfl
    | some type =>
      dsimp only
      split
      · dsimp only
        split <;> rfl
      · rfl

/-- Only what a session opens is delivered, and all of it. -/
theorem delivered_effects (suite : Suite Key) (t : SecureTransport Key) (x : Move) :
    (effects suite t x).filterMap Effect.delivered? =
      (openings suite t x).map fun o => (o.peer, o.body) := by
  cases x with
  | attend now fresh m =>
    simp only [effects, openings]
    cases known : t.numbered? m with
    | none =>
      rw [attend_gone known]
      rfl
    | some s =>
      simp only [Option.toList_some, List.flatMap_cons, List.flatMap_nil, List.append_nil]
      cases queued : s.queue with
      | nil =>
        rw [attend_idle known queued]
        simp only [opens, queued, List.map_nil, List.filterMap_nil]
      | cons record rest =>
        rw [attend_next known queued]
        exact delivered_process suite now fresh _ s queued
  | route now peer record => exact silent_route suite now t peer record
  | proceed now caller => exact silent_proceed t now caller
  | expire now m =>
    have quiet : Silent (t.expire suite now m).2 := by
      unfold expire
      split
      · rfl
      · split
        · exact silent_close suite t _
        · rfl
    exact quiet
  | forget peer role => exact silent_forget t peer role
  | closeSession peer => exact silent_closeSession suite t peer
  | shutdown =>
    have quiet : Silent (t.shutdown suite).2 := by
      unfold shutdown
      split
      · rfl
      · exact silent_closeSessions suite _ _
    exact quiet
  | call | send => rfl

theorem effects_attend_data (known : t.numbered? n = some s) (server : s.session.role = .server)
    {record : List UInt8} {rest : List (List UInt8)} (queued : s.queue = record :: rest)
    (data : record.head? = some Record.application) (now : Nat) (fresh : List UInt8) :
    effects suite t (.attend now fresh n) =
      ((s.session.opening? suite record).map fun (_, body) => .deliver s.peer body).toList := by
  have noHello : ¬ record.head? = some Record.clientHello := by
    rw [data]
    decide
  simp only [effects, attend_next known queued]
  rw [process_server (s := { s with queue := rest }) server, if_neg noHello, if_pos data]
  dsimp only
  rw [Session.openBody_body]
  cases s.session.opening? suite record <;> rfl

end

end Cohort.SecureTransport
