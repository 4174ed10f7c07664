import Cohort.Proofs.Transport.Sessions

/-! What a move can do to the sessions of a transport. Every operation is made of few steps: it drops a
session, opens one where there was none, or updates one in its place. So no two sessions ever have the
same peer and role, and a session that a move neither drops nor updates stays as it is. -/

namespace Cohort.SecureTransport

variable {Key : Type}

/-- Steps that drop only sessions that may be dropped, and update only those that may be updated. -/
inductive Changes (drops updates : Nat → Prop) (t : SecureTransport Key) :
    SecureTransport Key → Prop where
  | refl : Changes drops updates t t
  | remove {u : SecureTransport Key} (m : Nat) (allowed : drops m)
      (before : Changes drops updates t u) : Changes drops updates t (u.remove m)
  | add {u : SecureTransport Key} (peer : Net.Endpoint) (role : Role) (random : List UInt8)
      (now : Nat) (lone : u.session? peer role = none) (before : Changes drops updates t u) :
      Changes drops updates t (u.add peer (.openedAt role random now)).1
  | update {u : SecureTransport Key} (m : Nat) (f : PeerSession Key → PeerSession Key)
      (number : ∀ s, (f s).number = s.number)
      (place : ∀ s, u.numbered? m = some s →
        (f s).peer = s.peer ∧ (f s).session.role = s.session.role)
      (allowed : updates m) (before : Changes drops updates t u) :
      Changes drops updates t (u.update m f)
  | shut {u : SecureTransport Key} (before : Changes drops updates t u) :
      Changes drops updates t { u with closed := true }

/-- Sessions have numbers of their own, and there is one for each peer and role. -/
structure Orderly (t : SecureTransport Key) : Prop extends Apart t where
  places : (t.sessions.map fun s => (s.peer, s.session.role)).Nodup

section
variable {t u v : SecureTransport Key} {drops updates : Nat → Prop} {n : Nat}

/-! ### By place -/

theorem place_of_session?_eq_none {peer : Net.Endpoint} {role : Role}
    (none : t.session? peer role = none) {s : PeerSession Key} (member : s ∈ t.sessions)
    (there : s.peer = peer) : s.session.role ≠ role := by
  have other := List.find?_eq_none.mp none s member
  simp only [fits, there, beq_self_eq_true, Bool.true_and, beq_iff_eq] at other
  exact other

theorem Orderly.eq_of_place (orderly : t.Orderly) {s s' : PeerSession Key} (member : s ∈ t.sessions)
    (member' : s' ∈ t.sessions) (peer : s.peer = s'.peer) (role : s.session.role = s'.session.role) :
    s = s' :=
  List.inj_on_of_nodup_map orderly.places member member' (Prod.ext peer role)

theorem Orderly.session?_of_mem (orderly : t.Orderly) {s : PeerSession Key}
    (member : s ∈ t.sessions) : t.session? s.peer s.session.role = some s := by
  cases found : t.session? s.peer s.session.role with
  | none => exact absurd rfl (place_of_session?_eq_none found member rfl)
  | some s' =>
    obtain ⟨member', peer, role⟩ := mem_of_session? found
    rw [orderly.eq_of_place member member' peer.symm role.symm]

theorem Orderly.eq_of_number (orderly : t.Orderly) {s s' : PeerSession Key}
    (known : t.numbered? n = some s) (member : s' ∈ t.sessions) (same : s'.number = n) : s' = s := by
  have found := numbered?_of_mem orderly.toApart member
  rw [same, known] at found
  exact (Option.some.inj found).symm

/-- Sessions with another peer or role have other numbers. -/
theorem Orderly.number_ne (orderly : t.Orderly) {s s' : PeerSession Key}
    (known : t.numbered? n = some s) (member : s' ∈ t.sessions)
    (other : s'.peer ≠ s.peer ∨ s'.session.role ≠ s.session.role) : s'.number ≠ n := by
  intro same
  have equal := orderly.eq_of_number known member same
  rw [equal] at other
  rcases other with unlike | unlike <;> exact unlike rfl

theorem numbered?_opened (t : SecureTransport Key) (peer : Net.Endpoint) (session : Session Key)
    (n : Nat) : (t.add peer session).1.numbered? n =
      (t.numbered? n).or (if t.nextNumber = n then some ⟨t.nextNumber, peer, session, []⟩ else none) := by
  simp only [numbered?, add, List.find?_append, List.find?_cons, List.find?_nil]
  by_cases own : t.nextNumber = n
  · simp [own]
  · have unlike : (t.nextNumber == n) = false := by simpa using own
    simp [own, unlike]

/-! ### Orders kept -/

theorem orderly_fresh (secret : List UInt8) (handshakeTimeout idleTimeout : Nat) :
    ({ secret, handshakeTimeout, idleTimeout } : SecureTransport Key).Orderly :=
  ⟨⟨by simp, by simp⟩, by simp⟩

theorem orderly_update (orderly : t.Orderly) (m : Nat) (f : PeerSession Key → PeerSession Key)
    (number : ∀ s, (f s).number = s.number)
    (place : ∀ s, t.numbered? m = some s →
      (f s).peer = s.peer ∧ (f s).session.role = s.session.role) : (t.update m f).Orderly := by
  refine ⟨apart_update orderly.toApart m f number, ?_⟩
  have places : (t.update m f).sessions.map (fun s => (s.peer, s.session.role)) =
      t.sessions.map fun s => (s.peer, s.session.role) := by
    simp only [update, List.map_map]
    refine List.map_congr_left fun s member => ?_
    simp only [Function.comp]
    split
    · rename_i own
      have same : s.number = m := by simpa using own
      have known : t.numbered? m = some s := same ▸ numbered?_of_mem orderly.toApart member
      exact Prod.ext (place s known).1 (place s known).2
    · rfl
  exact places ▸ orderly.places

theorem orderly_remove (orderly : t.Orderly) (m : Nat) : (t.remove m).Orderly :=
  ⟨apart_remove orderly.toApart m, orderly.places.sublist (List.filter_sublist.map _)⟩

theorem orderly_add (orderly : t.Orderly) {peer : Net.Endpoint} {role : Role}
    (lone : t.session? peer role = none) (random : List UInt8) (now : Nat) :
    (t.add peer (.openedAt role random now)).1.Orderly := by
  refine ⟨apart_add orderly.toApart peer _, ?_⟩
  simp only [add, List.map_append, List.map_cons, List.map_nil]
  refine List.nodup_append.mpr ⟨orderly.places, by simp, ?_⟩
  intro a known b new
  obtain ⟨s, member, rfl⟩ := List.mem_map.mp known
  rw [List.mem_singleton.mp new]
  intro same
  exact place_of_session?_eq_none lone member (congrArg Prod.fst same) (congrArg Prod.snd same)

theorem Changes.orderly (changes : Changes drops updates t u) (orderly : t.Orderly) :
    u.Orderly := by
  induction changes with
  | refl => exact orderly
  | remove m _ _ ih => exact orderly_remove ih m
  | add peer role random now lone _ ih => exact orderly_add ih lone random now
  | update m f number place _ _ ih => exact orderly_update ih m f number place
  | shut _ ih => exact ⟨⟨ih.below, ih.distinct⟩, ih.places⟩

/-! ### Sessions kept -/

theorem Changes.trans (first : Changes drops updates t u) (second : Changes drops updates u v) :
    Changes drops updates t v := by
  induction second with
  | refl => exact first
  | remove m allowed _ ih => exact ih.remove m allowed
  | add peer role random now lone _ ih => exact ih.add peer role random now lone
  | update m f number place allowed _ ih => exact ih.update m f number place allowed
  | shut _ ih => exact ih.shut

theorem Changes.grows (changes : Changes drops updates t u) : t.nextNumber ≤ u.nextNumber := by
  induction changes with
  | refl => exact Nat.le_refl _
  | remove _ _ _ ih | update _ _ _ _ _ _ ih | shut _ ih => exact ih
  | add _ _ _ _ _ _ ih => exact Nat.le_succ_of_le ih

theorem Changes.timeouts (changes : Changes drops updates t u) :
    u.handshakeTimeout = t.handshakeTimeout ∧ u.idleTimeout = t.idleTimeout := by
  induction changes with
  | refl => exact ⟨rfl, rfl⟩
  | remove _ _ _ ih | add _ _ _ _ _ _ ih | update _ _ _ _ _ _ ih | shut _ ih => exact ih

theorem Changes.kept (changes : Changes drops updates t u) (below : n < t.nextNumber)
    (still : ¬ updates n) :
    u.numbered? n = t.numbered? n ∨ drops n ∧ u.numbered? n = none := by
  induction changes with
  | refl => exact Or.inl rfl
  | @remove u m allowed _ ih =>
    rw [numbered?_remove]
    split
    · rename_i same
      exact Or.inr ⟨same ▸ allowed, rfl⟩
    · exact ih
  | @add u peer role random now _ before ih =>
    rw [numbered?_add u peer _ (Nat.lt_of_lt_of_le below before.grows)]
    exact ih
  | @update u m f number _ allowed _ ih =>
    have other : m ≠ n := fun same => still (same ▸ allowed)
    rw [numbered?_update u m n f number, if_neg other]
    exact ih
  | shut _ ih => exact ih

/-- A session keeps its peer and its role. -/
theorem Changes.place (changes : Changes drops updates t u) (below : n < t.nextNumber)
    {s' : PeerSession Key} (known : u.numbered? n = some s') :
    ∃ s, t.numbered? n = some s ∧ s'.peer = s.peer ∧ s'.session.role = s.session.role := by
  induction changes generalizing s' with
  | refl => exact ⟨s', known, rfl, rfl⟩
  | @remove u m _ _ ih =>
    rw [numbered?_remove] at known
    split at known
    · contradiction
    · exact ih known
  | @add u peer role random now _ before ih =>
    rw [numbered?_add u peer _ (Nat.lt_of_lt_of_le below before.grows)] at known
    exact ih known
  | @update u m f number place _ _ ih =>
    rw [numbered?_update u m n f number] at known
    split at known
    · rename_i same
      obtain ⟨s, found, rfl⟩ := Option.map_eq_some_iff.mp known
      obtain ⟨s₀, first, peer, role⟩ := ih found
      have stays := place s (same ▸ found)
      exact ⟨s₀, first, stays.1.trans peer, stays.2.trans role⟩
    · exact ih known
  | shut _ ih => exact ih known

/-- A session that was not there before is new. -/
theorem Changes.born (changes : Changes drops updates t u) (still : ¬ updates n)
    (gone : t.numbered? n = none) {s : PeerSession Key} (known : u.numbered? n = some s) :
    ∃ role random now, s.session = .openedAt role random now ∧ s.queue = [] := by
  induction changes with
  | refl =>
    rw [gone] at known
    contradiction
  | @remove u m _ _ ih =>
    rw [numbered?_remove] at known
    split at known
    · contradiction
    · exact ih known
  | @add u peer role random now _ _ ih =>
    rw [numbered?_opened, Option.or_eq_some_iff] at known
    rcases known with old | ⟨_, new⟩
    · exact ih old
    · split at new
      · rw [← Option.some.inj new]
        exact ⟨role, random, now, rfl, rfl⟩
      · contradiction
  | @update u m f number _ allowed _ ih =>
    have other : m ≠ n := fun same => still (same ▸ allowed)
    rw [numbered?_update u m n f number, if_neg other] at known
    exact ih known
  | shut _ ih => exact ih known

/-! ### Operations -/

theorem changes_obtain (t : SecureTransport Key) (now : Nat) (random : List UInt8)
    (peer : Net.Endpoint) (role : Role) :
    Changes drops updates t (t.obtain now random peer role).1 := by
  unfold obtain
  split
  · exact .refl
  · rename_i lone
    exact Changes.refl.add peer role random now lone

theorem changes_forget {peer : Net.Endpoint} {role : Role}
    (allowed : ∀ s, t.session? peer role = some s → drops s.number) :
    Changes drops updates t (t.forget peer role).1 := by
  unfold forget
  split
  · rename_i s known
    exact Changes.refl.remove s.number (allowed s known)
  · exact .refl

/-- Closes the session in one role with a peer, if there is one. -/
def closeRole (suite : Suite Key) (peer : Net.Endpoint) (t : SecureTransport Key) (role : Role) :
    SecureTransport Key × List Effect :=
  (t.session? peer role).elim (t, []) (t.close suite)

theorem closeSession_eq (suite : Suite Key) (t : SecureTransport Key) (peer : Net.Endpoint) :
    t.closeSession suite peer =
      let client := closeRole suite peer t .client
      let server := closeRole suite peer client.1 .server
      (server.1, client.2 ++ server.2) := by
  simp only [closeSession, closeRole]
  cases t.session? peer .client with
  | some s =>
    cases server : (t.close suite s).1.session? peer .server <;> simp only [Option.elim, server]
  | none => cases server : t.session? peer .server <;> simp only [Option.elim, server]

theorem mem_closeSession {suite : Suite Key} {peer : Net.Endpoint} {s : PeerSession Key}
    (member : s ∈ (t.closeSession suite peer).1.sessions) : s ∈ t.sessions := by
  have closes (t : SecureTransport Key) (role : Role)
      (known : s ∈ (closeRole suite peer t role).1.sessions) : s ∈ t.sessions := by
    unfold closeRole at known
    cases found : t.session? peer role with
    | some u =>
      rw [found] at known
      exact List.mem_of_mem_filter known
    | none =>
      rw [found] at known
      exact known
  rw [closeSession_eq] at member
  exact closes t .client (closes _ .server member)

theorem changes_closeSession {suite : Suite Key} {peer : Net.Endpoint}
    (allowed : ∀ s ∈ t.sessions, s.peer = peer → drops s.number) :
    Changes drops updates t (t.closeSession suite peer).1 := by
  have closes (u : SecureTransport Key) (role : Role)
      (allowed : ∀ s ∈ u.sessions, s.peer = peer → drops s.number) :
      Changes drops updates u (closeRole suite peer u role).1 ∧
        ∀ s ∈ (closeRole suite peer u role).1.sessions, s.peer = peer → drops s.number := by
    unfold closeRole
    cases known : u.session? peer role with
    | some s =>
      obtain ⟨member, there, _⟩ := mem_of_session? known
      exact ⟨Changes.refl.remove s.number (allowed s member there),
        fun s' member' => allowed s' (List.mem_of_mem_filter member')⟩
    | none => exact ⟨.refl, allowed⟩
  obtain ⟨first, allowed⟩ := closes t .client allowed
  rw [closeSession_eq]
  exact first.trans (closes _ .server allowed).1

theorem changes_closeSessions {suite : Suite Key} (peers : List Net.Endpoint)
    (allowed : ∀ s ∈ t.sessions, drops s.number) :
    Changes drops updates t (t.closeSessions suite peers).1 := by
  induction peers generalizing t with
  | nil => exact .refl
  | cons peer rest ih =>
    have first : Changes drops updates t (t.closeSession suite peer).1 :=
      changes_closeSession fun s member _ => allowed s member
    exact first.trans (ih fun s member => allowed s (mem_closeSession member))

theorem changes_shutdown {suite : Suite Key} (allowed : ∀ s ∈ t.sessions, drops s.number) :
    Changes drops updates t (t.shutdown suite).1 := by
  unfold shutdown
  split
  · exact .refl
  · exact Changes.refl.shut.trans (changes_closeSessions _ allowed)

theorem changes_closedByPeer {suite : Suite Key} {peer : Net.Endpoint} {sender : Role}
    {record : List UInt8}
    (allowed : ∀ s, t.session? peer sender.opposite = some s →
      s.session.verifiesClose suite record = true → drops s.number) :
    Changes drops updates t (t.closedByPeer suite peer sender record).1 := by
  unfold closedByPeer
  split
  · exact .refl
  · rename_i s known
    split
    · rename_i verified
      exact Changes.refl.remove s.number (allowed s known verified)
    · exact .refl

theorem changes_setSession (m : Nat) (session : Session Key) (allowed : updates m)
    (role : ∀ s, t.numbered? m = some s → session.role = s.session.role) :
    Changes drops updates t (t.setSession m session) :=
  Changes.refl.update m _ (fun _ => rfl) (fun s known => ⟨rfl, role s known⟩) allowed

theorem changes_enqueue {m : Nat} (record : List UInt8) (allowed : updates m) :
    Changes drops updates t (t.enqueue m record).1 :=
  Changes.refl.update m _ (fun _ => rfl) (fun _ _ => ⟨rfl, rfl⟩) allowed

theorem changes_repeatHello (orderly : t.Orderly) {peer : Net.Endpoint}
    (allowed : ∀ s, t.session? peer .client = some s → updates s.number) :
    Changes drops updates t (t.repeatHello peer).1 := by
  unfold repeatHello
  split
  · exact .refl
  · rename_i s known
    have found := numbered?_of_mem orderly.toApart (mem_of_session? known).1
    split
    · refine changes_setSession s.number _ (allowed s known) fun s' known' => ?_
      rw [found] at known'
      rw [← Option.some.inj known']
      rfl
    · exact .refl

theorem changes_expire {suite : Suite Key} {now m : Nat}
    (allowed : ∀ s, t.numbered? m = some s →
      s.session.expiresAt t.handshakeTimeout t.idleTimeout ≤ now → drops m) :
    Changes drops updates t (t.expire suite now m).1 := by
  unfold expire
  split
  · exact .refl
  · rename_i s known
    split
    · rename_i late
      have own := (mem_of_numbered? known).2
      exact Changes.refl.remove s.number (own ▸ allowed s known late)
    · exact .refl

theorem changes_proceed {now : Nat} {caller : Caller}
    (allowed : ∀ s, t.session? caller.peer .client = some s → drops s.number) :
    Changes drops updates t (t.proceed now caller).1 := by
  have still : Changes drops updates t t := .refl
  have fails : Changes drops updates t (t.forget caller.peer .client).1 := changes_forget allowed
  cases reached : t.handshakeOf caller.number with
  | established => simpa only [proceed, reached] using still
  | failed failure => simpa only [proceed, reached] using fails
  | pending =>
    simp only [proceed, reached]
    split
    · exact fails
    · split
      · exact still
      · split <;> exact still

theorem role_sealBody (suite : Suite Key) (now : Nat) (s : Session Key) (body : List UInt8) :
    (s.sealBody suite now body).1.role = s.role := by
  unfold Session.sealBody
  split <;> rfl

theorem changes_send {suite : Suite Key} {now : Nat} {caller : Caller} {body : List UInt8}
    (allowed : updates caller.number) :
    Changes drops updates t (t.sealBody suite now caller body).1 := by
  rcases sealBody_cases suite now t caller body with ⟨same, _⟩ | ⟨s, known, result⟩
  · rw [same]
    exact .refl
  · have own := (mem_of_numbered? known).2
    rw [result, own]
    refine changes_setSession _ _ allowed fun s' known' => ?_
    rw [known] at known'
    rw [← Option.some.inj known']
    exact role_sealBody suite now s.session body

end

end Cohort.SecureTransport
