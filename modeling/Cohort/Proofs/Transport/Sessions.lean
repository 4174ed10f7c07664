import Cohort.Proofs.Session.Epochs
import Cohort.Transport.Secure

/-! What the transport does to one of its client sessions. Whatever arrives and whatever is called, a
session meets only what its history says, until it is dropped; its number is not given again. -/

namespace Cohort.SecureTransport

variable {Key : Type}

/-- What may happen to a transport. -/
inductive Move where
  | route (now : Nat) (peer : Net.Endpoint) (record : List UInt8)
  | attend (now : Nat) (fresh : List UInt8) (number : Nat)
  | call (now : Nat) (fresh : List UInt8) (peer : Net.Endpoint)
  | proceed (now : Nat) (caller : Caller)
  | send (now : Nat) (caller : Caller) (body : List UInt8)
  | expire (now : Nat) (number : Nat)
  | forget (peer : Net.Endpoint) (role : Role)
  | closeSession (peer : Net.Endpoint)
  | shutdown

section
variable (suite : Suite Key)

def move (t : SecureTransport Key) : Move → SecureTransport Key
  | .route now peer record => (t.route suite now peer record).1
  | .attend now fresh number => (t.attend suite now fresh number).1
  | .call now fresh peer => (t.call now fresh peer).1
  | .proceed now caller => (t.proceed now caller).1
  | .send now caller body => (t.sealBody suite now caller body).1
  | .expire now number => (t.expire suite now number).1
  | .forget peer role => (t.forget peer role).1
  | .closeSession peer => (t.closeSession suite peer).1
  | .shutdown => (t.shutdown suite).1

def after (t : SecureTransport Key) : List Move → SecureTransport Key
  | [] => t
  | x :: rest => (t.move suite x).after rest

/-- The key and the number under which a move seals a body in session `n`. -/
def nonce? (t : SecureTransport Key) (n : Nat) : Move → Option (Key × UInt64)
  | .send now caller body =>
    if caller.number = n then (t.numbered? n).bind (·.session.nonce? (.send now body)) else none
  | _ => none

/-- The keys and numbers under which some moves seal bodies in session `n`, in order. -/
def nonces (t : SecureTransport Key) (n : Nat) : List Move → List (Key × UInt64)
  | [] => []
  | x :: rest => (t.nonce? n x).toList ++ (t.move suite x).nonces n rest

/-- What a request for a new key is to the client session `n`. -/
def asked (t : SecureTransport Key) (n : Nat) (peer : Net.Endpoint) : List Session.Move :=
  match t.session? peer .client with
  | some s => if s.number = n ∧ s.session.isKeyed then [.renegotiate] else []
  | none => []

/-- What a record that a session attends to is to the client session `n`. -/
def heard (n now : Nat) (s : PeerSession Key) (record : List UInt8) : List Session.Move :=
  if s.number = n ∧ s.session.role = .client ∧ record.head? = some Record.serverHello then
    [.hello now record]
  else []

/-- What it is to the client session `n` that a session attends to its next record. -/
def attended (t : SecureTransport Key) (n now number : Nat) : List Session.Move :=
  match t.numbered? number with
  | none => []
  | some s =>
    match s.queue with
    | [] => []
    | record :: _ => heard n now s record

/-- What a move is to the client session `n`. -/
def seen (t : SecureTransport Key) (n : Nat) : Move → List Session.Move
  | .send now caller body => if caller.number = n then [.send now body] else []
  | .attend now _ number => t.attended n now number
  | .route _ peer record => if record.head? = some Record.renegotiate then t.asked n peer else []
  | _ => []

/-- What some moves are to the client session `n`, until it is dropped. -/
def history (t : SecureTransport Key) (n : Nat) : List Move → List Session.Move
  | [] => []
  | x :: rest =>
    if (t.numbered? n).isSome then t.seen n x ++ (t.move suite x).history n rest else []

end

/-! ### Sessions by number -/

/-- Sessions have numbers of their own, and none has the one that is next. -/
structure Apart (t : SecureTransport Key) : Prop where
  below : ∀ s ∈ t.sessions, s.number < t.nextNumber
  distinct : (t.sessions.map (·.number)).Nodup

section
variable {t : SecureTransport Key} {n : Nat}

theorem mem_of_numbered? {s : PeerSession Key} (known : t.numbered? n = some s) :
    s ∈ t.sessions ∧ s.number = n :=
  ⟨List.mem_of_find?_eq_some known, by simpa using List.find?_some known⟩

theorem numbered?_of_mem (apart : t.Apart) {s : PeerSession Key} (member : s ∈ t.sessions) :
    t.numbered? s.number = some s := by
  have distinct := apart.distinct
  unfold numbered?
  generalize t.sessions = sessions at member distinct
  induction sessions with
  | nil => simp at member
  | cons first rest ih =>
    obtain ⟨other, later⟩ := List.nodup_cons.mp distinct
    rcases List.mem_cons.mp member with rfl | member
    · simp
    · have unlike : first.number ≠ s.number := by
        intro same
        exact other (List.mem_map.mpr ⟨s, member, same.symm⟩)
      simpa [unlike] using ih member later

theorem mem_of_session? {peer : Net.Endpoint} {role : Role} {s : PeerSession Key}
    (known : t.session? peer role = some s) :
    s ∈ t.sessions ∧ s.peer = peer ∧ s.session.role = role := by
  have suits : fits peer role s = true := List.find?_some known
  simp only [fits, Bool.and_eq_true, beq_iff_eq] at suits
  exact ⟨List.mem_of_find?_eq_some known, suits⟩

theorem numbered?_update (t : SecureTransport Key) (m n : Nat) (f : PeerSession Key → PeerSession Key)
    (number : ∀ s, (f s).number = s.number) : (t.update m f).numbered? n =
      if m = n then (t.numbered? n).map f else t.numbered? n := by
  have numbers : ((fun s : PeerSession Key => s.number == n) ∘
      fun s => if s.number == m then f s else s) = fun s => s.number == n := by
    funext s
    simp only [Function.comp]
    split
    · rw [number]
    · rfl
  unfold numbered? update
  rw [List.find?_map, numbers]
  cases found : t.sessions.find? (·.number == n) with
  | none => simp
  | some s =>
    have own : s.number = n := by simpa using List.find?_some found
    by_cases same : m = n
    · simp [own, same]
    · have other : n ≠ m := fun alike => same alike.symm
      simp [own, same, other]

theorem numbered?_remove (t : SecureTransport Key) (m n : Nat) :
    (t.remove m).numbered? n = if m = n then none else t.numbered? n := by
  unfold numbered? remove
  rw [List.find?_filter]
  split
  · rename_i same
    refine List.find?_eq_none.mpr fun s _ => ?_
    simp [same]
  · rename_i other
    congr 1
    funext s
    by_cases own : s.number = n
    · have unlike : n ≠ m := fun alike => other alike.symm
      simp [own, unlike]
    · simp [own]

theorem numbered?_add (t : SecureTransport Key) (peer : Net.Endpoint) (session : Session Key)
    (old : n < t.nextNumber) : (t.add peer session).1.numbered? n = t.numbered? n := by
  unfold numbered? add
  have other : ¬ t.nextNumber = n := by omega
  simp [List.find?_append, other]

theorem apart_update (apart : t.Apart) (m : Nat) (f : PeerSession Key → PeerSession Key)
    (number : ∀ s, (f s).number = s.number) : (t.update m f).Apart := by
  have numbers : (t.update m f).sessions.map (·.number) = t.sessions.map (·.number) := by
    simp only [update, List.map_map]
    refine List.map_congr_left fun s _ => ?_
    simp only [Function.comp]
    split
    · exact number s
    · rfl
  refine ⟨?_, numbers ▸ apart.distinct⟩
  intro s member
  have known : s.number ∈ t.sessions.map (·.number) := numbers ▸ List.mem_map_of_mem member
  obtain ⟨old, member, same⟩ := List.mem_map.mp known
  rw [← same]
  exact apart.below old member

theorem apart_remove (apart : t.Apart) (m : Nat) : (t.remove m).Apart where
  below s member := apart.below s (List.mem_of_mem_filter member)
  distinct := apart.distinct.sublist (List.filter_sublist.map _)

theorem apart_add (apart : t.Apart) (peer : Net.Endpoint) (session : Session Key) :
    (t.add peer session).1.Apart where
  below s member := by
    rcases List.mem_append.mp member with old | new
    · exact Nat.lt_succ_of_lt (apart.below s old)
    · rw [List.mem_singleton.mp new]
      exact Nat.lt_succ_self _
  distinct := by
    simp only [add, List.map_append, List.map_cons, List.map_nil]
    refine List.nodup_append.mpr ⟨apart.distinct, by simp, ?_⟩
    intro a known b new
    obtain ⟨s, member, rfl⟩ := List.mem_map.mp known
    rw [List.mem_singleton.mp new]
    exact Nat.ne_of_lt (apart.below s member)

end

/-! ### What an operation is to a client session -/

/-- An operation that is some moves to the client session `n`, or drops it. -/
structure Goes (suite : Suite Key) (n : Nat) (t u : SecureTransport Key) (moves : List Session.Move) :
    Prop where
  apart : t.Apart → u.Apart
  secret : u.secret = t.secret
  grows : t.nextNumber ≤ u.nextNumber
  lost : n < t.nextNumber → t.numbered? n = none → u.numbered? n = none
  kept : t.Apart → ∀ s, t.numbered? n = some s → s.session.role = .client →
    u.numbered? n = none ∨
      ∃ s', u.numbered? n = some s' ∧ s'.session = s.session.after suite t.secret moves

section
variable {suite : Suite Key} {n : Nat} {t u v : SecureTransport Key} {moves : List Session.Move}

theorem Goes.refl (suite : Suite Key) (n : Nat) (t : SecureTransport Key) : Goes suite n t t [] where
  apart := id
  secret := rfl
  grows := Nat.le_refl _
  lost _ gone := gone
  kept _ s known _ := Or.inr ⟨s, known, rfl⟩

theorem role_move (secret : List UInt8) (s : Session Key) (x : Session.Move) :
    (s.move suite secret x).role = s.role := by
  cases x with
  | send now body =>
    cases keyed : s.key with
    | none => rw [Session.move, Session.sealBody_unkeyed keyed]
    | some key => rw [Session.move, Session.sealBody_keyed keyed]
  | hello now record =>
    cases taken : s.takes suite secret record with
    | true => rw [Session.move, Session.acceptHello_taken taken]
    | false =>
      obtain ⟨handshake, same⟩ := Session.acceptHello_refused taken now
      rw [Session.move, same]
  | renegotiate => rfl

theorem role_after (secret : List UInt8) (s : Session Key) (moves : List Session.Move) :
    (s.after suite secret moves).role = s.role := by
  induction moves generalizing s with
  | nil => rfl
  | cons x rest ih => exact (ih _).trans (role_move secret s x)

theorem Goes.trans {more : List Session.Move} (first : Goes suite n t u moves)
    (second : Goes suite n u v more) : Goes suite n t v (moves ++ more) where
  apart known := second.apart (first.apart known)
  secret := second.secret.trans first.secret
  grows := Nat.le_trans first.grows second.grows
  lost below gone := second.lost (Nat.lt_of_lt_of_le below first.grows) (first.lost below gone)
  kept known s found client := by
    have below : n < t.nextNumber := by
      obtain ⟨member, own⟩ := mem_of_numbered? found
      exact own ▸ known.below s member
    rcases first.kept known s found client with gone | ⟨s', found', goesOn⟩
    · exact Or.inl (second.lost (Nat.lt_of_lt_of_le below first.grows) gone)
    · have client' : s'.session.role = .client := by
        rw [goesOn, role_after]
        exact client
      rcases second.kept (first.apart known) s' found' client' with gone | ⟨s'', found'', further⟩
      · exact Or.inl gone
      · refine Or.inr ⟨s'', found'', ?_⟩
        rw [further, goesOn, first.secret, Session.after_append]

theorem goes_remove (suite : Suite Key) (n : Nat) (t : SecureTransport Key) (m : Nat) :
    Goes suite n t (t.remove m) [] where
  apart known := apart_remove known m
  secret := rfl
  grows := Nat.le_refl _
  lost _ gone := by
    rw [numbered?_remove, gone, ite_self]
  kept _ s known _ := by
    rw [numbered?_remove]
    split
    · exact Or.inl rfl
    · exact Or.inr ⟨s, known, rfl⟩

theorem goes_add (suite : Suite Key) (n : Nat) (t : SecureTransport Key) (peer : Net.Endpoint)
    (session : Session Key) : Goes suite n t (t.add peer session).1 [] where
  apart known := apart_add known peer session
  secret := rfl
  grows := Nat.le_succ _
  lost below gone := by rw [numbered?_add t peer session below, gone]
  kept known s found _ := by
    obtain ⟨member, own⟩ := mem_of_numbered? found
    have below : n < t.nextNumber := own ▸ known.below s member
    exact Or.inr ⟨s, by rw [numbered?_add t peer session below, found], rfl⟩

/-- Changing a session is what it is to that session, and nothing to the others. -/
theorem goes_update (suite : Suite Key) (n : Nat) (t : SecureTransport Key) (m : Nat)
    (f : PeerSession Key → PeerSession Key) (number : ∀ s, (f s).number = s.number)
    (moves : List Session.Move) (other : m ≠ n → moves = [])
    (own : m = n → t.Apart → ∀ s, t.numbered? n = some s → s.session.role = .client →
      (f s).session = s.session.after suite t.secret moves) :
    Goes suite n t (t.update m f) moves where
  apart known := apart_update known m f number
  secret := rfl
  grows := Nat.le_refl _
  lost _ gone := by
    rw [numbered?_update t m n f number, gone]
    simp
  kept known s found client := by
    rw [numbered?_update t m n f number, found]
    split
    · rename_i same
      exact Or.inr ⟨f s, rfl, own same known s found client⟩
    · rename_i unlike
      rw [other unlike]
      exact Or.inr ⟨s, rfl, rfl⟩

theorem goes_queue (suite : Suite Key) (n : Nat) (t : SecureTransport Key) (m : Nat)
    (queue : PeerSession Key → List (List UInt8)) :
    Goes suite n t (t.update m fun s => { s with queue := queue s }) [] :=
  goes_update suite n t m (fun s => { s with queue := queue s }) (fun _ => rfl) [] (fun _ => rfl)
    fun _ _ _ _ _ => rfl

theorem goes_obtain (suite : Suite Key) (n : Nat) (t : SecureTransport Key) (now : Nat)
    (fresh : List UInt8) (peer : Net.Endpoint) (role : Role) :
    Goes suite n t (t.obtain now fresh peer role).1 [] := by
  unfold obtain
  split
  · exact .refl suite n t
  · exact goes_add suite n t peer _

theorem goes_forget (suite : Suite Key) (n : Nat) (t : SecureTransport Key) (peer : Net.Endpoint)
    (role : Role) : Goes suite n t (t.forget peer role).1 [] := by
  unfold forget
  split
  · exact goes_remove suite n t _
  · exact .refl suite n t

theorem goes_closeSession (suite : Suite Key) (n : Nat) (t : SecureTransport Key)
    (peer : Net.Endpoint) : Goes suite n t (t.closeSession suite peer).1 [] := by
  have closes : ∀ (t : SecureTransport Key) (role : Role), Goes suite n t
      (match t.session? peer role with
        | some s => t.close suite s
        | none => (t, [])).1 [] := by
    intro t role
    split
    · exact goes_remove suite n t _
    · exact .refl suite n t
  exact (closes t .client).trans (closes _ .server)

theorem goes_closeSessions (suite : Suite Key) (n : Nat) (t : SecureTransport Key)
    (peers : List Net.Endpoint) : Goes suite n t (t.closeSessions suite peers).1 [] := by
  induction peers generalizing t with
  | nil => exact .refl suite n t
  | cons peer rest ih => exact (goes_closeSession suite n t peer).trans (ih _)

theorem goes_shutdown (suite : Suite Key) (n : Nat) (t : SecureTransport Key) :
    Goes suite n t (t.shutdown suite).1 [] := by
  unfold shutdown
  split
  · exact .refl suite n t
  · have closed : Goes suite n t { t with closed := true } [] :=
      ⟨fun known => ⟨known.below, known.distinct⟩, rfl, Nat.le_refl _, fun _ gone => gone,
        fun _ s known _ => Or.inr ⟨s, known, rfl⟩⟩
    exact closed.trans (goes_closeSessions suite n _ _)

/-- A session that moves takes its transport along; only the moves of the numbered one count. -/
theorem goes_setSession (suite : Suite Key) (n : Nat) {t : SecureTransport Key} (m : Nat)
    (session : Session Key) (moves : List Session.Move) (other : m ≠ n → moves = [])
    (own : m = n → t.Apart → ∀ s, t.numbered? n = some s → s.session.role = .client →
      session = s.session.after suite t.secret moves) :
    Goes suite n t (t.setSession m session) moves :=
  goes_update suite n t m (fun s => { s with session := session }) (fun _ => rfl) moves other own

theorem goes_repeatHello (suite : Suite Key) (n : Nat) (t : SecureTransport Key)
    (peer : Net.Endpoint) : Goes suite n t (t.repeatHello peer).1 (t.asked n peer) := by
  unfold repeatHello asked
  cases found : t.session? peer .client with
  | none => exact .refl suite n t
  | some s =>
    dsimp only
    have member := (mem_of_session? found).1
    split
    · rename_i keyed
      refine goes_setSession suite n s.number _ _ ?_ ?_
      · intro unlike
        exact if_neg (by simp [unlike])
      · intro same apart s' known _
        rw [if_pos ⟨same, keyed⟩]
        rw [← same, numbered?_of_mem apart member] at known
        rw [← Option.some.inj known]
        rfl
    · rename_i keyless
      rw [if_neg (by simp [keyless])]
      exact .refl suite n t

theorem goes_closedByPeer (suite : Suite Key) (n : Nat) (t : SecureTransport Key)
    (peer : Net.Endpoint) (sender : Role) (record : List UInt8) :
    Goes suite n t (t.closedByPeer suite peer sender record).1 [] := by
  unfold closedByPeer
  split
  · exact .refl suite n t
  · split
    · exact goes_remove suite n t _
    · exact .refl suite n t

theorem goes_route (suite : Suite Key) (n now : Nat) (t : SecureTransport Key) (peer : Net.Endpoint)
    (record : List UInt8) : Goes suite n t (t.route suite now peer record).1
      (t.seen n (.route now peer record)) := by
  cases record with
  | nil => exact .refl suite n t
  | cons type rest =>
    by_cases asks : type = Record.renegotiate
    · rw [asks]
      exact goes_repeatHello suite n t peer
    · have unseen : t.seen n (.route now peer (type :: rest)) = [] := by simp [seen, asks]
      rw [unseen]
      unfold route
      dsimp only
      split
      · exact (goes_obtain suite n t now zeros peer .server).trans (goes_queue suite n _ _ _)
      · split
        · split
          · exact goes_queue suite n t _ _
          · exact .refl suite n t
        · split
          · split
            · exact goes_queue suite n t _ _
            · exact .refl suite n t
          · split
            · split
              · exact goes_closedByPeer suite n t peer _ _
              · exact .refl suite n t
            · exact .refl suite n t

theorem goes_process (suite : Suite Key) (n now : Nat) (fresh : List UInt8) (t : SecureTransport Key)
    {s : PeerSession Key} (record : List UInt8)
    (known : t.Apart → t.numbered? s.number = some s) :
    Goes suite n t (t.process suite now fresh s record).1
      (heard n now s record) := by
  unfold heard
  have server : ∀ session, s.session.role = .server → Goes suite n t (t.setSession s.number session)
      (if s.number = n ∧ s.session.role = .client ∧ record.head? = some Record.serverHello then
        [.hello now record] else []) := by
    intro session role
    rw [if_neg (by simp [role])]
    refine goes_setSession suite n s.number session [] (fun _ => rfl) ?_
    intro same apart s' found client
    rw [← same, known apart] at found
    rw [← Option.some.inj found, role] at client
    contradiction
  have idle : ¬ (s.number = n ∧ s.session.role = .client ∧ record.head? = some Record.serverHello) →
      Goes suite n t t
        (if s.number = n ∧ s.session.role = .client ∧ record.head? = some Record.serverHello then
          [.hello now record] else []) := by
    intro unseen
    rw [if_neg unseen]
    exact .refl suite n t
  unfold process
  split
  · rename_i role head
    split
    · exact server _ role
    · split
      · exact server _ role
      · exact idle (by simp [role])
  · rename_i type role head
    split
    · rename_i hello
      refine goes_setSession suite n s.number _ _ ?_ ?_
      · intro unlike
        exact if_neg (by simp [unlike])
      · intro same apart s' found _
        rw [if_pos ⟨same, role, by rw [head, hello]⟩]
        rw [← same, known apart] at found
        rw [← Option.some.inj found]
        rfl
    · rename_i other
      exact idle (by simp [head, other])
  · rename_i head
    exact idle (by simp [head])

theorem goes_attend (suite : Suite Key) (n now : Nat) (fresh : List UInt8) (t : SecureTransport Key)
    (number : Nat) :
    Goes suite n t (t.attend suite now fresh number).1 (t.attended n now number) := by
  unfold attend attended
  cases found : t.numbered? number with
  | none => exact .refl suite n t
  | some s =>
    dsimp only
    cases queued : s.queue with
    | nil => exact .refl suite n t
    | cons record rest =>
      have own := (mem_of_numbered? found).2
      have taken := goes_queue suite n t number fun _ => rest
      have here := numbered?_update t number number (fun s => { s with queue := rest }) fun _ => rfl
      rw [if_pos rfl, found] at here
      exact taken.trans (goes_process suite n now fresh (s := { s with queue := rest }) _ record
        fun _ => own ▸ here)

/-- A body is sealed in the caller's session if that has a key, and else nothing happens. -/
theorem sealBody_cases (suite : Suite Key) (now : Nat) (t : SecureTransport Key) (caller : Caller)
    (body : List UInt8) :
    (t.sealBody suite now caller body).1 = t ∧
        (∀ s, t.numbered? caller.number = some s → s.session.key = none) ∨
      ∃ s, t.numbered? caller.number = some s ∧ (t.sealBody suite now caller body).1 =
        t.setSession s.number (s.session.sealBody suite now body).1 := by
  cases found : t.numbered? caller.number with
  | none => exact Or.inl ⟨by simp only [sealBody, found], by simp⟩
  | some s =>
    cases keyed : s.session.key with
    | none =>
      have unsealed : s.session.sealBody suite now body = (s.session, none) := by
        simp only [Session.sealBody, keyed]
      refine Or.inl ⟨by simp only [sealBody, found, unsealed], ?_⟩
      rintro s' known
      rw [← Option.some.inj known, keyed]
    | some key =>
      refine Or.inr ⟨s, rfl, ?_⟩
      simp only [sealBody, found, Session.sealBody, keyed]

theorem goes_send (suite : Suite Key) (n now : Nat) (t : SecureTransport Key) (caller : Caller)
    (body : List UInt8) : Goes suite n t (t.sealBody suite now caller body).1
      (t.seen n (.send now caller body)) := by
  rcases sealBody_cases suite now t caller body with ⟨same, keyless⟩ | ⟨s, found, result⟩
  · rw [same]
    refine ⟨id, rfl, Nat.le_refl _, fun _ gone => gone, fun _ s known _ => Or.inr ⟨s, known, ?_⟩⟩
    by_cases own : caller.number = n
    · rw [own] at keyless
      simp only [seen, own, if_true, Session.after, Session.move,
        Session.sealBody_unkeyed (keyless s known)]
    · simp only [seen, own, if_false, Session.after]
  · rw [result]
    have own := (mem_of_numbered? found).2
    refine goes_setSession suite n s.number _ _ ?_ ?_
    · intro unlike
      exact if_neg fun same => unlike (own.trans same)
    · intro same _ s' known _
      rw [own] at same
      rw [← same, found] at known
      rw [← Option.some.inj known]
      simp only [seen, same, if_true, Session.after, Session.move]

theorem goes_proceed (suite : Suite Key) (n now : Nat) (t : SecureTransport Key) (caller : Caller) :
    Goes suite n t (t.proceed now caller).1 [] := by
  have still := Goes.refl suite n t
  have fails := goes_forget suite n t caller.peer .client
  cases reached : t.handshakeOf caller.number with
  | established => simpa only [proceed, reached] using still
  | failed failure => simpa only [proceed, reached] using fails
  | pending =>
    simp only [proceed, reached]
    split
    · exact fails
    · split
      · exact still
      · split <;> exact still

theorem goes_expire (suite : Suite Key) (n now : Nat) (t : SecureTransport Key) (number : Nat) :
    Goes suite n t (t.expire suite now number).1 [] := by
  unfold expire
  split
  · exact .refl suite n t
  · split
    · exact goes_remove suite n t _
    · exact .refl suite n t

theorem goes_move (suite : Suite Key) (n : Nat) (t : SecureTransport Key) (x : Move) :
    Goes suite n t (t.move suite x) (t.seen n x) := by
  cases x with
  | route now peer record => exact goes_route suite n now t peer record
  | attend now fresh number => exact goes_attend suite n now fresh t number
  | call now fresh peer => exact goes_obtain suite n t now fresh peer .client
  | proceed now caller => exact goes_proceed suite n now t caller
  | send now caller body => exact goes_send suite n now t caller body
  | expire now number => exact goes_expire suite n now t number
  | forget peer role => exact goes_forget suite n t peer role
  | closeSession peer => exact goes_closeSession suite n t peer
  | shutdown => exact goes_shutdown suite n t

theorem apart_after {suite : Suite Key} {t : SecureTransport Key} (apart : t.Apart)
    (moves : List Move) : (t.after suite moves).Apart := by
  induction moves generalizing t with
  | nil => exact apart
  | cons x rest ih => exact ih ((goes_move suite 0 t x).apart apart)

theorem secret_after {suite : Suite Key} {t : SecureTransport Key} (moves : List Move) :
    (t.after suite moves).secret = t.secret := by
  induction moves generalizing t with
  | nil => rfl
  | cons x rest ih => exact ih.trans (goes_move suite 0 t x).secret

theorem after_append {suite : Suite Key} {t : SecureTransport Key} (first second : List Move) :
    t.after suite (first ++ second) = (t.after suite first).after suite second := by
  induction first generalizing t with
  | nil => rfl
  | cons x rest ih => exact ih

end

end Cohort.SecureTransport
