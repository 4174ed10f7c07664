import Cohort.Proofs.Transport.Keys

/-! Which session goes when a caller gives up. It asks for the session with its peer and not for its own:
while its own is there that is the same, and afterwards it is whichever came later. -/

namespace Cohort.SecureTransport

variable {Key : Type}

section
variable {suite : Suite Key} {t : SecureTransport Key} {caller : Caller} {n now : Nat}

/-- A caller that fails has the client session with its peer removed, whichever it is. -/
theorem proceed_of_failed {fault : TransportFault}
    (failed : (t.proceed now caller).2.2.2 = .failed fault) :
    (t.proceed now caller).1 = (t.forget caller.peer .client).1 := by
  cases reached : t.handshakeOf caller.number with
  | established => simp [proceed, reached] at failed
  | failed failure => simp only [proceed, reached]
  | pending =>
    simp only [proceed, reached] at failed ⊢
    split at failed
    · rename_i late
      rw [if_pos late]
    · split at failed
      · contradiction
      · split at failed
        · rename_i gone
          simp [handshakeOf, gone] at reached
        · contradiction

/-- A session that goes with a failing caller is the client session with the caller's peer. -/
theorem removed_of_failed (orderly : t.Orderly) {fault : TransportFault}
    (failed : (t.proceed now caller).2.2.2 = .failed fault) {m : Nat} {s : PeerSession Key}
    (found : t.numbered? m = some s) :
    (t.proceed now caller).1.numbered? m = none ↔ t.session? caller.peer .client = some s := by
  obtain ⟨member, own⟩ := mem_of_numbered? found
  rw [proceed_of_failed failed]
  unfold forget
  cases there : t.session? caller.peer .client with
  | none => simp [found]
  | some s' =>
    have member' := (mem_of_session? there).1
    dsimp only
    rw [numbered?_remove, found]
    constructor
    · intro gone
      split at gone
      · rename_i same
        rw [orderly.eq_of_number found member' same]
      · contradiction
    · intro same
      rw [Option.some.inj same, own, if_pos rfl]

/-- The session that a call waits for is the client session with its peer. -/
theorem placed_of_call (orderly : t.Orderly) (now : Nat) (fresh : List UInt8) (peer : Net.Endpoint) :
    ∃ s, (t.call now fresh peer).1.numbered? (t.call now fresh peer).2.number = some s ∧
      s.peer = peer ∧ s.session.role = .client := by
  simp only [call, obtain]
  cases there : t.session? peer .client with
  | some s =>
    obtain ⟨member, place⟩ := mem_of_session? there
    exact ⟨s, numbered?_of_mem orderly.toApart member, place⟩
  | none =>
    have gone : t.numbered? t.nextNumber = none := by
      cases known : t.numbered? t.nextNumber with
      | none => rfl
      | some s =>
        obtain ⟨member, own⟩ := mem_of_numbered? known
        exact absurd own (Nat.ne_of_lt (orderly.below s member))
    refine ⟨⟨t.nextNumber, peer, .openedAt .client fresh now, []⟩, ?_, rfl, rfl⟩
    change (t.add peer _).1.numbered? t.nextNumber = _
    rw [numbered?_opened, if_pos rfl, gone]
    rfl

/-- As long as a session that a caller waits for is there, it is the one with the caller's peer. -/
theorem session?_of_waited (orderly : t.Orderly) {s : PeerSession Key}
    (waited : t.numbered? n = some s) (client : s.session.role = .client) {moves : List Move}
    {s' : PeerSession Key} (still : (t.after suite moves).numbered? n = some s') :
    (t.after suite moves).session? s.peer .client = some s' := by
  obtain ⟨member, own⟩ := mem_of_numbered? waited
  obtain ⟨old, known, peer, role⟩ := place_after orderly (own ▸ orderly.below s member) still
  rw [waited] at known
  obtain rfl := Option.some.inj known
  rw [← peer, ← client, ← role]
  exact (orderly_after orderly moves).session?_of_mem (mem_of_numbered? still).1

/-- Another session in its place was opened after it, when it was gone. -/
theorem newer_of_waited (orderly : t.Orderly) {s : PeerSession Key}
    (waited : t.numbered? n = some s) (client : s.session.role = .client) {moves : List Move}
    {s' : PeerSession Key} (found : (t.after suite moves).session? s.peer .client = some s')
    (other : s'.number ≠ n) : (t.after suite moves).numbered? n = none ∧ n < s'.number := by
  obtain ⟨member, own⟩ := mem_of_numbered? waited
  obtain ⟨member', there, role'⟩ := mem_of_session? found
  constructor
  · cases still : (t.after suite moves).numbered? n with
    | none => rfl
    | some s'' =>
      have same := session?_of_waited orderly waited client still
      rw [found] at same
      obtain rfl := Option.some.inj same
      exact absurd (mem_of_numbered? still).2 other
  · by_contra older
    have below : s'.number < t.nextNumber :=
      Nat.lt_of_le_of_lt (Nat.not_lt.mp older) (own ▸ orderly.below s member)
    have still := numbered?_of_mem (orderly_after orderly moves).toApart member'
    -- It would have been beside the other in one place.
    obtain ⟨old, known, peer, role⟩ := place_after orderly below still
    obtain ⟨member₀, own₀⟩ := mem_of_numbered? known
    have same := orderly.eq_of_place member₀ member (peer.symm.trans there)
      ((role.symm.trans role').trans client.symm)
    exact other (own₀.symm.trans (same ▸ own))

/-- Someone calls, and fails after whatever else happened. It takes only its own session with it if and
only if that is still there, or no client session with the peer is. Else it takes one that was opened to
the same peer after its own. -/
theorem failing_caller_removes_own_iff {secret : List UInt8} {handshakeTimeout idleTimeout : Nat}
    {earlier later : List Move} {at₁ now : Nat} {fresh : List UInt8} {peer : Net.Endpoint}
    {caller : Caller} {fault : TransportFault}
    (own : caller.number =
      ((after suite { secret, handshakeTimeout, idleTimeout } earlier).call at₁ fresh peer).2.number)
    (called : caller.peer = peer)
    (failed : ((after suite { secret, handshakeTimeout, idleTimeout }
      (earlier ++ .call at₁ fresh peer :: later)).proceed now caller).2.2.2 = .failed fault) :
    let t := after suite { secret, handshakeTimeout, idleTimeout }
      (earlier ++ .call at₁ fresh peer :: later)
    ((∀ m s, t.numbered? m = some s → (t.proceed now caller).1.numbered? m = none →
        m = caller.number) ↔
      (t.numbered? caller.number).isSome ∨ t.session? peer .client = none) ∧
    ∀ m s, t.numbered? m = some s → (t.proceed now caller).1.numbered? m = none →
      m ≠ caller.number →
      t.numbered? caller.number = none ∧ caller.number < m ∧ s.peer = peer ∧
        s.session.role = .client := by
  subst called
  have orderly₀ : (after suite { secret, handshakeTimeout, idleTimeout } earlier).Orderly :=
    orderly_after (orderly_fresh secret handshakeTimeout idleTimeout) earlier
  have orderly₁ : (move suite _ (.call at₁ fresh caller.peer)).Orderly := orderly_move orderly₀ _
  obtain ⟨first, waited, place, client⟩ := placed_of_call orderly₀ at₁ fresh caller.peer
  rw [← own] at waited
  intro t
  have run : t = (move suite _ (.call at₁ fresh caller.peer)).after suite later := after_append ..
  have orderly : t.Orderly := run ▸ orderly_after orderly₁ later
  have still : ∀ s, t.numbered? caller.number = some s → t.session? caller.peer .client = some s := by
    rw [← place, run]
    exact fun s => session?_of_waited orderly₁ waited client
  have newer : ∀ s, t.session? caller.peer .client = some s → s.number ≠ caller.number →
      t.numbered? caller.number = none ∧ caller.number < s.number := by
    rw [← place, run]
    exact fun s => newer_of_waited orderly₁ waited client
  refine ⟨⟨fun onlyOwn => ?_, fun there m s found gone => ?_⟩, fun m s found gone other => ?_⟩
  · cases there : t.session? caller.peer .client with
    | none => exact Or.inr rfl
    | some s =>
      have found := numbered?_of_mem orderly.toApart (mem_of_session? there).1
      have same := onlyOwn _ s found ((removed_of_failed orderly failed found).mpr there)
      rw [← same, found]
      exact Or.inl rfl
  · have target := (removed_of_failed orderly failed found).mp gone
    rcases there with present | absent
    · obtain ⟨s', known⟩ := Option.isSome_iff_exists.mp present
      have same := (still s' known).symm.trans target
      rw [← (mem_of_numbered? found).2, ← Option.some.inj same]
      exact (mem_of_numbered? known).2
    · rw [absent] at target
      contradiction
  · have target := (removed_of_failed orderly failed found).mp gone
    have number := (mem_of_numbered? found).2
    obtain ⟨lost, later⟩ := newer s target (number ▸ other)
    exact ⟨lost, number ▸ later, (mem_of_session? target).2⟩

end

/-! ### One that fails in time, and one that fails late -/

def callee : Net.Endpoint := { ip := .v4 0x0a000005, port := 7000 }

def waiter : Caller := { peer := callee, number := 0, deadline := 4000 }

/-- Another waits for the same session, and somebody for one with another peer. -/
def company : List Move :=
  [.call 1 [] callee, .call 2 (bytesOf 2) { callee with port := 7001 }]

/-- The first gives up, and calls again while the other has yet to look. -/
def outrun : List Move :=
  company ++ [.proceed 4000 waiter, .call 4001 (bytesOf 3) callee]

theorem first_waiter_removes_own :
    ((labelTransport.after labelSuite (.call 0 (bytesOf 1) callee :: company)).proceed 4000
        waiter).2.2.2 = .failed (.handshake callee "no answer within 4s") ∧
      ∀ m s, (labelTransport.after labelSuite
          (.call 0 (bytesOf 1) callee :: company)).numbered? m = some s →
        ((labelTransport.after labelSuite (.call 0 (bytesOf 1) callee :: company)).proceed 4000
          waiter).1.numbered? m = none → m = 0 := by
  have own : waiter.number =
      ((labelTransport.after labelSuite []).call 0 (bytesOf 1) callee).2.number := by
    decide +kernel
  have failed : ((labelTransport.after labelSuite
      ([] ++ .call 0 (bytesOf 1) callee :: company)).proceed 4000 waiter).2.2.2 =
        .failed (.handshake callee "no answer within 4s") := by
    decide +kernel
  have there : ((labelTransport.after labelSuite
      ([] ++ .call 0 (bytesOf 1) callee :: company)).numbered? 0).isSome = true := by
    decide +kernel
  obtain ⟨sole, _⟩ := failing_caller_removes_own_iff own rfl failed
  exact ⟨failed, sole.mpr (Or.inl there)⟩

/-- The other finds its session gone, and takes the one that was opened after it. -/
theorem second_waiter_removes_later :
    let t := labelTransport.after labelSuite (.call 0 (bytesOf 1) callee :: outrun)
    (t.proceed 4002 waiter).2.2.2 = .failed (.handshake callee "session closed") ∧
      (t.numbered? 0).isNone = true ∧ (t.numbered? 2).isSome = true ∧
      ((t.proceed 4002 waiter).1.numbered? 2).isNone = true := by
  decide +kernel

end Cohort.SecureTransport
