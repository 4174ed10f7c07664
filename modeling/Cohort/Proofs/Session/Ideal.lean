import Cohort.Proofs.Session.Service
import Cohort.Proofs.Wire.Words

/-! Ideal cryptography: what opens under a key was sealed under it, and under no other, and other random
bytes give another key. A hash without collisions gives such keys. There is a suite like that, which labels
what it seals with the key, the nonce and the header. -/

namespace Cohort

variable {Key : Type} {suite : Suite Key}

/-- A body sealed under a key and a number. -/
def Record.applicationOf (suite : Suite Key) (key : Key) (number : UInt64) (body : List UInt8) :
    List UInt8 :=
  let header := applicationHeader number
  header ++ suite.encrypt key (applicationNonce number) header body

/-- Random bytes of a client and of a server, as many as hellos state. -/
structure Record.Randoms (clientRandom serverRandom : List UInt8) : Prop where
  client : clientRandom.length = randomLength
  server : serverRandom.length = randomLength

structure Suite.Ideal (suite : Suite Key) : Prop where
  opens (key : Key) (nonce header sealed body : List UInt8) :
    suite.decrypt key nonce header sealed = some body ↔
      sealed = suite.encrypt key nonce header body
  apart {key key' : Key} {number : UInt64} {header body body' : List UInt8} :
    suite.encrypt key (Record.applicationNonce number) header body =
      suite.encrypt key' (Record.applicationNonce number) header body' → key = key'
  tagged (key : Key) (number : UInt64) (header body : List UInt8) :
    Record.tagLength ≤ (suite.encrypt key (Record.applicationNonce number) header body).length
  derived {secret clientRandom serverRandom clientRandom' serverRandom' : List UInt8} :
    Record.Randoms clientRandom serverRandom → Record.Randoms clientRandom' serverRandom' →
    suite.derive secret clientRandom serverRandom =
      suite.derive secret clientRandom' serverRandom' →
    clientRandom = clientRandom' ∧ serverRandom = serverRandom'

/-! ### Keys by a hash -/

namespace Suite

/-- The suite with keys by a hash. -/
def hashing (suite : Suite Key) (hash : List UInt8 → Key) : Suite Key where
  derive secret clientRandom serverRandom := hash (keyInput secret clientRandom serverRandom)
  encrypt := suite.encrypt
  decrypt := suite.decrypt

theorem hashing_standard :
    standard.hashing (fun input => .ofBytes (Sha256.digest input)) = standard := rfl

/-- The random bytes stand side by side in what is hashed, so their length tells them apart. -/
theorem keyInput_inj {secret clientRandom serverRandom clientRandom' serverRandom' : List UInt8}
    (randoms : Record.Randoms clientRandom serverRandom)
    (randoms' : Record.Randoms clientRandom' serverRandom')
    (same : keyInput secret clientRandom serverRandom =
      keyInput secret clientRandom' serverRandom') :
    clientRandom = clientRandom' ∧ serverRandom = serverRandom' := by
  simp only [keyInput, List.append_assoc] at same
  have random := List.append_cancel_left same
  obtain ⟨client, rest⟩ := List.append_inj random (randoms.client.trans randoms'.client.symm)
  exact ⟨client, List.append_cancel_right rest⟩

/-- Keys by a hash without collisions leave a suite ideal. -/
theorem Ideal.hashing (ideal : suite.Ideal) {hash : List UInt8 → Key}
    (injective : Function.Injective hash) : (suite.hashing hash).Ideal where
  opens := ideal.opens
  apart := ideal.apart
  tagged := ideal.tagged
  derived randoms randoms' same := keyInput_inj randoms randoms' (injective same)

end Suite

namespace Session

variable {s : Session Key} {key key' : Key} {number : UInt64} {body body' : List UInt8}
  {record : List UInt8}

/-! ### Application records -/

theorem length_applicationHeader (number : UInt64) :
    (Record.applicationHeader number).length = Record.applicationHeaderLength := by
  rw [Record.applicationHeader, List.length_cons, Wire.length_bigEndian]
  rfl

theorem take_applicationOf : (Record.applicationOf suite key number body).take
    Record.applicationHeaderLength = Record.applicationHeader number := by
  rw [Record.applicationOf, ← length_applicationHeader number, List.take_left]

theorem drop_applicationOf : (Record.applicationOf suite key number body).drop
    Record.applicationHeaderLength = suite.encrypt key (Record.applicationNonce number)
      (Record.applicationHeader number) body := by
  rw [Record.applicationOf, ← length_applicationHeader number, List.drop_left]

theorem recordNumber_applicationOf :
    recordNumber (Record.applicationOf suite key number body) = number := by
  have small : number.toNat < 0x100 ^ 8 := number.toNat_lt
  rw [recordNumber, take_applicationOf, Record.applicationHeader, List.drop_one, List.tail_cons,
    Wire.ofBigEndian_bigEndian, Nat.mod_eq_of_lt small]
  exact UInt64.ofNat_toNat

theorem head_applicationOf :
    (Record.applicationOf suite key number body).head? = some Record.application := rfl

theorem record_sealBody (keyed : s.key = some key) (now : Nat) (body : List UInt8) :
    (s.sealBody suite now body).2 = some (Record.applicationOf suite key s.nextNumber body) := by
  simp only [sealBody, keyed, Record.applicationOf]

/-! ### Under which key a record opens -/

section
variable (ideal : suite.Ideal)
include ideal

theorem overhead_le_applicationOf (key : Key) (number : UInt64) (body : List UInt8) :
    Record.overhead ≤ (Record.applicationOf suite key number body).length := by
  have tagged := ideal.tagged key number (Record.applicationHeader number) body
  rw [Record.applicationOf, List.length_append, length_applicationHeader, Record.overhead]
  omega

theorem bodyUnder_inj (opens : bodyUnder suite key record = some body)
    (opens' : bodyUnder suite key' record = some body') : key = key' := by
  have first := (ideal.opens ..).mp opens
  have second := (ideal.opens ..).mp opens'
  exact ideal.apart (first.symm.trans second)

theorem bodyUnder_applicationOf :
    bodyUnder suite key (Record.applicationOf suite key number body) = some body := by
  rw [bodyUnder, ideal.opens, recordNumber_applicationOf, take_applicationOf, drop_applicationOf]

theorem bodyUnder_of_ne (other : key' ≠ key) :
    bodyUnder suite key' (Record.applicationOf suite key number body) = none := by
  cases opens : bodyUnder suite key' (Record.applicationOf suite key number body) with
  | none => rfl
  | some body' => exact absurd (bodyUnder_inj ideal opens (bodyUnder_applicationOf ideal)) other

theorem opening?_of_current (keyed : s.key = some key) (fresh : s.replay.isFresh number = true) :
    s.opening? suite (Record.applicationOf suite key number body) = some (key, body) := by
  have long := overhead_le_applicationOf ideal key number body
  have opens : s.openCurrent suite (Record.applicationOf suite key number body) = some body := by
    refine openCurrent_eq_some_iff.mpr ⟨key, keyed, ?_, bodyUnder_applicationOf ideal⟩
    rw [recordNumber_applicationOf]
    exact fresh
  rw [opening?, if_neg (Nat.not_lt.mpr long)]
  simp only [opens, keyed, Option.map_some]

theorem openCurrent_of_ne (other : s.key ≠ some key) :
    s.openCurrent suite (Record.applicationOf suite key number body) = none := by
  cases opens : s.openCurrent suite (Record.applicationOf suite key number body) with
  | none => rfl
  | some body' =>
    obtain ⟨key', keyed, _, under⟩ := openCurrent_eq_some_iff.mp opens
    rw [keyed, bodyUnder_inj ideal under (bodyUnder_applicationOf ideal)] at other
    contradiction

theorem opening?_of_offered {offer : OfferedKey Key} (offers : s.offered = some offer)
    (other : s.key ≠ some offer.key) :
    s.opening? suite (Record.applicationOf suite offer.key number body) =
      some (offer.key, body) := by
  have long := overhead_le_applicationOf ideal offer.key number body
  rw [opening?, if_neg (Nat.not_lt.mpr long)]
  simp only [openCurrent_of_ne ideal other, offers, Option.bind_some, bodyUnder_applicationOf ideal,
    Option.map_some]

theorem opening?_of_neither (other : s.key ≠ some key)
    (unoffered : ∀ offer, s.offered = some offer → offer.key ≠ key) :
    s.opening? suite (Record.applicationOf suite key number body) = none := by
  have long := overhead_le_applicationOf ideal key number body
  rw [opening?, if_neg (Nat.not_lt.mpr long)]
  simp only [openCurrent_of_ne ideal other]
  cases offers : s.offered with
  | none => rfl
  | some offer =>
    simp only [Option.bind_some, bodyUnder_of_ne ideal (unoffered offer offers), Option.map_none]

end

end Session

/-! ### A suite of labels -/

/-- Bytes with an end that shows, whatever follows. -/
def marked : List UInt8 → List UInt8
  | [] => [0]
  | b :: rest => 1 :: b :: marked rest

theorem marked_append_inj {first second rest rest' : List UInt8}
    (same : marked first ++ rest = marked second ++ rest') : first = second ∧ rest = rest' := by
  induction first generalizing second with
  | nil =>
    cases second with
    | nil => exact ⟨rfl, List.append_cancel_left same⟩
    | cons b second => simp [marked] at same
  | cons a first ih =>
    cases second with
    | nil => simp [marked] at same
    | cons b second =>
      simp only [marked, List.cons_append, List.cons.injEq, true_and] at same
      obtain ⟨head, tail⟩ := same
      obtain ⟨alike, left⟩ := ih tail
      exact ⟨by rw [head, alike], left⟩

/-- What a key is derived from. -/
abbrev LabelKey := List UInt8 × List UInt8 × List UInt8

/-- What goes before an application body names the key, the nonce and the header; what proves a key
elsewhere is as long as a tag, and shows the server's random bytes. -/
def label (key : LabelKey) (nonce header : List UInt8) : List UInt8 :=
  if nonce.head? = some 0 then
    List.replicate Record.tagLength 0 ++ (marked key.1 ++ (marked key.2.1 ++ (marked key.2.2 ++
      (marked nonce ++ marked header))))
  else key.2.2.take Record.tagLength

def labelSuite : Suite LabelKey where
  derive secret clientRandom serverRandom := (secret, clientRandom, serverRandom)
  encrypt key nonce header body := label key nonce header ++ body
  decrypt key nonce header sealed :=
    if label key nonce header <+: sealed then some (sealed.drop (label key nonce header).length)
    else none

theorem labelSuite_ideal : labelSuite.Ideal where
  opens key nonce header sealed body := by
    simp only [labelSuite]
    constructor
    · intro opened
      split at opened
      · rename_i begins
        rw [← Option.some.inj opened]
        exact (List.prefix_iff_eq_append.mp begins).symm
      · contradiction
    · intro same
      rw [same, if_pos (List.prefix_append _ _), List.drop_left]
  apart {key key' number header body body'} same := by
    simp only [labelSuite, label, Record.applicationNonce, Record.nonce, List.head?_cons, if_true,
      List.append_assoc] at same
    have labels := List.append_cancel_left same
    obtain ⟨secret, labels⟩ := marked_append_inj labels
    obtain ⟨clientRandom, labels⟩ := marked_append_inj labels
    obtain ⟨serverRandom, _⟩ := marked_append_inj labels
    exact Prod.ext secret (Prod.ext clientRandom serverRandom)
  tagged key number header body := by
    simp only [labelSuite, label, Record.applicationNonce, Record.nonce, List.head?_cons, if_true,
      List.length_append, List.length_replicate]
    omega
  derived _ _ same := ⟨congrArg (·.2.1) same, congrArg (·.2.2) same⟩

example : (labelSuite.hashing fun input => (input, [], [])).Ideal :=
  labelSuite_ideal.hashing fun _ _ same => (Prod.mk.inj same).1

/-- What does not begin like a label was not sealed. -/
theorem bodyUnder_label_eq_none {record : List UInt8}
    (strange : (record.drop Record.applicationHeaderLength).head? ≠ some 0) (key : LabelKey) :
    Session.bodyUnder labelSuite key record = none := by
  cases opens : Session.bodyUnder labelSuite key record with
  | none => rfl
  | some body =>
    have sealed := (labelSuite_ideal.opens ..).mp opens
    rw [sealed] at strange
    exact absurd rfl strange

/-- Random bytes that are all the same. -/
def bytesOf (byte : UInt8) : List UInt8 := List.replicate Record.randomLength byte

theorem randoms_bytesOf (clientByte serverByte : UInt8) :
    Record.Randoms (bytesOf clientByte) (bytesOf serverByte) :=
  ⟨List.length_replicate, List.length_replicate⟩

def helloWith (byte : UInt8) : List UInt8 := Record.clientHello :: bytesOf byte

def keyWith (clientByte serverByte : UInt8) : LabelKey := ([7], bytesOf clientByte, bytesOf serverByte)

end Cohort
