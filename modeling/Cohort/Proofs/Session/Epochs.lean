import Mathlib.Data.List.Nodup
import Cohort.Session.Basic

/-! The keys and numbers under which a client seals. An epoch begins with each server hello that the
client takes; in it one key serves, and the numbers start from zero again. -/

namespace Cohort.Session

variable {Key : Type}

/-- What may happen to a client's session. Records that are neither a server hello nor a request for a
new key do not reach it. -/
inductive Move where
  | send (now : Nat) (body : List UInt8)
  | hello (now : Nat) (record : List UInt8)
  | renegotiate

section
variable (suite : Suite Key) (secret : List UInt8)

def move (s : Session Key) : Move → Session Key
  | .send now body => (s.sealBody suite now body).1
  | .hello now record => s.acceptHello suite secret now record
  | .renegotiate => s.renegotiate.1

def after (s : Session Key) : List Move → Session Key
  | [] => s
  | x :: rest => (s.move suite secret x).after rest

/-- The key and the number under which a move seals a body. -/
def nonce? (s : Session Key) : Move → Option (Key × UInt64)
  | .send _ _ => s.key.map (·, s.nextNumber)
  | _ => none

/-- The keys and numbers under which some moves seal bodies, in order. -/
def nonces (s : Session Key) : List Move → List (Key × UInt64)
  | [] => []
  | x :: rest => (s.nonce? x).toList ++ (s.move suite secret x).nonces rest

/-- The server's random bytes in a server hello. -/
def serverRandomOf (record : List UInt8) : List UInt8 :=
  (record.take Record.serverHelloHeaderLength).drop (1 + Record.randomLength)

/-- Whether a record is a server hello that the client takes: the answer to its own hello, wanted, and
with a proof of the key. -/
def takes (s : Session Key) (record : List UInt8) : Bool :=
  let header := record.take Record.serverHelloHeaderLength
  record.length == Record.serverHelloHeaderLength + Record.tagLength
    && (header.drop 1).take Record.randomLength == s.clientRandom
    && (!s.isKeyed || s.renegotiating && s.serverRandom != serverRandomOf record)
    && (suite.decrypt (suite.derive secret s.clientRandom (serverRandomOf record)) Record.helloNonce
      header (record.drop Record.serverHelloHeaderLength)).isSome

end

/-- One epoch of a client: the server's random bytes that began it, and how many bodies were sealed. -/
structure Epoch where
  serverRandom : List UInt8
  count : Nat
  deriving DecidableEq, Repr

/-- The keys and numbers of an epoch: one key, and the numbers from zero. -/
def Epoch.nonces (suite : Suite Key) (secret clientRandom : List UInt8) (e : Epoch) :
    List (Key × UInt64) :=
  (List.range e.count).map fun place =>
    (suite.derive secret clientRandom e.serverRandom, UInt64.ofNat place)

/-- The epochs of some moves, when `count` bodies have been sealed in the present one. -/
def epochsFrom (suite : Suite Key) (secret : List UInt8) (s : Session Key) (count : Nat) :
    List Move → List Epoch
  | [] => [⟨s.serverRandom, count⟩]
  | x :: rest =>
    let next := s.move suite secret x
    match x with
    | .send _ _ => next.epochsFrom suite secret (if s.isKeyed then count + 1 else count) rest
    | .hello _ record =>
      if s.takes suite secret record then
        ⟨s.serverRandom, count⟩ :: next.epochsFrom suite secret 0 rest
      else next.epochsFrom suite secret count rest
    | .renegotiate => next.epochsFrom suite secret count rest

/-- The epochs of a session's moves. The first one is before the first hello and without a key. -/
def epochs (suite : Suite Key) (secret : List UInt8) (s : Session Key) (moves : List Move) :
    List Epoch := s.epochsFrom suite secret 0 moves

/-! ### Steps -/

section
variable {suite : Suite Key} {secret : List UInt8} {s : Session Key}

theorem after_append (first second : List Move) : s.after suite secret (first ++ second) =
    (s.after suite secret first).after suite secret second := by
  induction first generalizing s with
  | nil => rfl
  | cons x rest ih => exact ih

theorem nonces_append (first second : List Move) : s.nonces suite secret (first ++ second) =
    s.nonces suite secret first ++ (s.after suite secret first).nonces suite secret second := by
  induction first generalizing s with
  | nil => rfl
  | cons x rest ih => simp only [List.cons_append, nonces, after, ih, List.append_assoc]

theorem acceptHello_taken {record : List UInt8} (taken : s.takes suite secret record = true)
    (now : Nat) : s.acceptHello suite secret now record =
      { s with
        key := some (suite.derive secret s.clientRandom (serverRandomOf record))
        serverRandom := serverRandomOf record
        nextNumber := 0
        confirmed := true
        renegotiating := false
        lastActivity := now
        handshake := if s.isKeyed then s.handshake else .established } := by
  simp only [takes, Bool.and_eq_true, beq_iff_eq] at taken
  obtain ⟨⟨⟨length, own⟩, asked⟩, proof⟩ := taken
  obtain ⟨empty, opened⟩ := Option.isSome_iff_exists.mp proof
  unfold serverRandomOf at asked opened ⊢
  have wanted : (s.isKeyed && (!s.renegotiating || s.serverRandom ==
      (record.take Record.serverHelloHeaderLength).drop (1 + Record.randomLength))) = false := by
    cases keyed : s.isKeyed <;> simp_all
  simp only [acceptHello, length, own, wanted, opened, ne_eq, not_true, if_false, Bool.false_eq_true]

/-- A record that is not taken changes neither key nor numbers. -/
theorem acceptHello_refused {record : List UInt8} (refused : s.takes suite secret record = false)
    (now : Nat) : ∃ handshake,
      s.acceptHello suite secret now record = { s with handshake := handshake } := by
  unfold acceptHello
  split
  · exact ⟨s.handshake, rfl⟩
  · rename_i length
    dsimp only
    split
    · exact ⟨s.handshake, rfl⟩
    · rename_i own
      split
      · exact ⟨s.handshake, rfl⟩
      · rename_i asked
        split
        · rename_i opened
          have taken : s.takes suite secret record = true := by
            unfold takes serverRandomOf
            cases keyed : s.isKeyed <;> simp_all
          rw [refused] at taken
          contradiction
        · split
          · exact ⟨s.handshake, rfl⟩
          · exact ⟨.failed .unproved, rfl⟩

theorem sealBody_keyed {key : Key} (keyed : s.key = some key) (now : Nat) (body : List UInt8) :
    (s.sealBody suite now body).1 = { s with nextNumber := s.nextNumber + 1, lastActivity := now } := by
  simp only [sealBody, keyed]

theorem sealBody_unkeyed (keyless : s.key = none) (now : Nat) (body : List UInt8) :
    (s.sealBody suite now body).1 = s := by
  simp only [sealBody, keyless]

end

/-! ### Epoch by epoch -/

section
variable {suite : Suite Key} {secret clientRandom : List UInt8}

theorem Epoch.nonces_succ (serverRandom : List UInt8) (count : Nat) :
    Epoch.nonces suite secret clientRandom ⟨serverRandom, count + 1⟩ =
      Epoch.nonces suite secret clientRandom ⟨serverRandom, count⟩ ++
        [(suite.derive secret clientRandom serverRandom, UInt64.ofNat count)] := by
  simp only [Epoch.nonces, List.range_succ, List.map_append, List.map_cons, List.map_nil]

/-- How the key and the next number of a session go with the bodies sealed in its epoch. -/
structure Fits (suite : Suite Key) (secret : List UInt8) (s : Session Key) (count : Nat) : Prop where
  number : s.nextNumber = UInt64.ofNat count
  key : ∀ key, s.key = some key → key = suite.derive secret s.clientRandom s.serverRandom
  keyless : s.key = none → count = 0

theorem Fits.send {s : Session Key} {count : Nat} {key : Key} (fits : Fits suite secret s count)
    (keyed : s.key = some key) (now : Nat) (body : List UInt8) :
    Fits suite secret (s.sealBody suite now body).1 (count + 1) := by
  rw [sealBody_keyed keyed]
  refine ⟨?_, fits.key, fun none => ?_⟩
  · rw [fits.number]
    exact (UInt64.ofNat_add count 1).symm
  · simp [keyed] at none

theorem Fits.take {s : Session Key} {record : List UInt8}
    (taken : s.takes suite secret record = true) (now : Nat) :
    Fits suite secret (s.acceptHello suite secret now record) 0 := by
  rw [acceptHello_taken taken]
  exact ⟨rfl, fun key known => (Option.some.inj known).symm, fun none => by simp at none⟩

theorem move_clientRandom (s : Session Key) (x : Move) :
    (s.move suite secret x).clientRandom = s.clientRandom := by
  cases x with
  | send now body =>
    cases keyed : s.key with
    | none => rw [move, sealBody_unkeyed keyed]
    | some key => rw [move, sealBody_keyed keyed]
  | hello now record =>
    cases taken : s.takes suite secret record with
    | true => rw [move, acceptHello_taken taken]
    | false =>
      obtain ⟨handshake, same⟩ := acceptHello_refused taken now
      rw [move, same]
  | renegotiate => rfl

theorem nonces_send {s : Session Key} {count : Nat} {key : Key} (fits : Fits suite secret s count)
    (keyed : s.key = some key) (now : Nat) (body : List UInt8) (rest : List Move) :
    s.nonces suite secret (.send now body :: rest) =
      (suite.derive secret s.clientRandom s.serverRandom, UInt64.ofNat count) ::
        (s.move suite secret (.send now body)).nonces suite secret rest := by
  rw [← fits.key key keyed, ← fits.number]
  simp only [nonces, nonce?, keyed, Option.map_some, Option.toList_some, List.cons_append,
    List.nil_append]

/-- What is sealed is, epoch by epoch, sealed under the key of the epoch and the numbers from zero. -/
theorem nonces_epochsFrom {s : Session Key} {count : Nat} (fits : Fits suite secret s count)
    (moves : List Move) :
    Epoch.nonces suite secret s.clientRandom ⟨s.serverRandom, count⟩ ++ s.nonces suite secret moves =
      (s.epochsFrom suite secret count moves).flatMap (Epoch.nonces suite secret s.clientRandom) := by
  induction moves generalizing s count with
  | nil => simp [nonces, epochsFrom]
  | cons x rest ih =>
    cases x with
    | send now body =>
      cases keyed : s.key with
      | none =>
        have same : s.move suite secret (.send now body) = s := sealBody_unkeyed keyed now body
        simp only [nonces, epochsFrom, nonce?, same, keyed, isKeyed, Option.map_none,
          Option.toList_none, List.nil_append, Option.isSome_none, Bool.false_eq_true, if_false]
        exact ih fits
      | some key =>
        have counted : s.epochsFrom suite secret count (.send now body :: rest) =
            (s.move suite secret (.send now body)).epochsFrom suite secret (count + 1) rest := by
          simp only [epochsFrom, isKeyed, keyed, Option.isSome_some, if_true]
        have client : (s.move suite secret (.send now body)).clientRandom = s.clientRandom :=
          move_clientRandom s _
        have server : (s.move suite secret (.send now body)).serverRandom = s.serverRandom := by
          rw [move, sealBody_keyed keyed]
        have later := ih (s := s.move suite secret (.send now body)) (fits.send keyed now body)
        rw [client, server, Epoch.nonces_succ, List.append_assoc] at later
        rw [nonces_send fits keyed, counted, ← later]
        rfl
    | hello now record =>
      cases taken : s.takes suite secret record with
      | true =>
        have later := ih (Fits.take taken now)
        rw [acceptHello_taken taken] at later
        simp only [nonces, epochsFrom, nonce?, move, acceptHello_taken taken, taken, if_true,
          Option.toList_none, List.nil_append, List.flatMap_cons]
        rw [← later]
        rfl
      | false =>
        obtain ⟨handshake, same⟩ := acceptHello_refused taken now
        simp only [nonces, epochsFrom, nonce?, move, same, taken, Bool.false_eq_true, if_false,
          Option.toList_none, List.nil_append]
        exact ih (s := { s with handshake := handshake }) ⟨fits.number, fits.key, fits.keyless⟩
    | renegotiate => exact ih (s := s.renegotiate.1) ⟨fits.number, fits.key, fits.keyless⟩

/-! ### When no key meets a number twice -/

/-- Two epochs have no key in common under which bodies were sealed. -/
def Epoch.Apart (a b : Epoch) : Prop :=
  a.count = 0 ∨ b.count = 0 ∨ a.serverRandom ≠ b.serverRandom

instance (a b : Epoch) : Decidable (a.Apart b) :=
  inferInstanceAs (Decidable (a.count = 0 ∨ b.count = 0 ∨ a.serverRandom ≠ b.serverRandom))

theorem ofNat_inj_iff {a b : Nat} :
    UInt64.ofNat a = UInt64.ofNat b ↔ a % UInt64.size = b % UInt64.size := by
  rw [← UInt64.toNat_inj, UInt64.toNat_ofNat', UInt64.toNat_ofNat']

theorem Epoch.nodup_iff (e : Epoch) :
    (e.nonces suite secret clientRandom).Nodup ↔ e.count ≤ UInt64.size := by
  rw [Epoch.nonces, List.nodup_map_iff_inj_on List.nodup_range]
  simp only [List.mem_range, Prod.mk.injEq, true_and, ofNat_inj_iff]
  constructor
  · intro distinct
    by_contra many
    have same := distinct 0 (by omega) UInt64.size (by omega) (by simp)
    contradiction
  · intro bound a below b below' same
    rwa [Nat.mod_eq_of_lt (by omega), Nat.mod_eq_of_lt (by omega)] at same

theorem Epoch.disjoint_iff
    (injective : ∀ a b, suite.derive secret clientRandom a = suite.derive secret clientRandom b → a = b)
    (a b : Epoch) :
    List.Disjoint (a.nonces suite secret clientRandom) (b.nonces suite secret clientRandom) ↔
      a.Apart b := by
  constructor
  · intro disjoint
    by_contra together
    simp only [Epoch.Apart, not_or, ne_eq, not_not] at together
    obtain ⟨some, some', same⟩ := together
    have first : (suite.derive secret clientRandom a.serverRandom, UInt64.ofNat 0) ∈
        a.nonces suite secret clientRandom :=
      List.mem_map.mpr ⟨0, List.mem_range.mpr (by omega), rfl⟩
    have again : (suite.derive secret clientRandom a.serverRandom, UInt64.ofNat 0) ∈
        b.nonces suite secret clientRandom :=
      List.mem_map.mpr ⟨0, List.mem_range.mpr (by omega), by rw [same]⟩
    exact disjoint first again
  · intro apart use inFirst inSecond
    obtain ⟨place, below, rfl⟩ := List.mem_map.mp inFirst
    obtain ⟨place', below', same⟩ := List.mem_map.mp inSecond
    rw [List.mem_range] at below below'
    rcases apart with none | none | other
    · omega
    · omega
    · exact other (injective _ _ (congrArg Prod.fst same)).symm

end

/-- A client never meets a number twice under one key if and only if no server's random bytes begin two
epochs with sealed bodies, and no epoch has more bodies than there are numbers. -/
theorem nodup_nonces_iff {suite : Suite Key} {secret : List UInt8} {s : Session Key}
    (injective : ∀ a b,
      suite.derive secret s.clientRandom a = suite.derive secret s.clientRandom b → a = b)
    (keyless : s.key = none) (first : s.nextNumber = 0) (moves : List Move) :
    (s.nonces suite secret moves).Nodup ↔
      (s.epochs suite secret moves).Pairwise Epoch.Apart ∧
        ∀ e ∈ s.epochs suite secret moves, e.count ≤ UInt64.size := by
  have fits : Fits suite secret s 0 := ⟨first, fun key known => by simp [keyless] at known, fun _ => rfl⟩
  have byEpoch := nonces_epochsFrom fits moves
  have nothing : Epoch.nonces suite secret s.clientRandom ⟨s.serverRandom, 0⟩ = [] := rfl
  rw [nothing, List.nil_append] at byEpoch
  rw [byEpoch, List.nodup_flatMap, and_comm]
  refine and_congr ?_ ?_
  · exact iff_of_eq (congrArg (List.Pairwise · _)
      (funext fun a => funext fun b => propext (Epoch.disjoint_iff injective a b)))
  · exact forall_congr' fun e => imp_congr_right fun _ => Epoch.nodup_iff e

end Cohort.Session
