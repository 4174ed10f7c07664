import Cohort.Proofs.Session.Epochs
import Cohort.Proofs.Session.Ideal

/-! What becomes of an offer before its client uses it. A server's end has room for one: in place of its
key while nobody has confirmed that, and beside it afterwards. A hello with other random bytes takes the
room for an offer of its own. -/

namespace Cohort.Session

variable {Key : Type}

/-- The random bytes that a record states as a hello. -/
def greeting? (record : List UInt8) : Option (List UInt8) :=
  if record.head? = some Record.clientHello then helloRandom? record else none

/-- The answer to a hello. -/
def offerTo (suite : Suite Key) (secret clientRandom serverRandom : List UInt8) : OfferedKey Key :=
  let key := suite.derive secret clientRandom serverRandom
  ⟨clientRandom, key, Record.serverHelloOf suite key clientRandom serverRandom⟩

/-- An offer in place of a key, and what shows whether it was kept. -/
structure Taken (before : Session Key) (offer : OfferedKey Key) (kept : Prop) (s : Session Key) :
    Prop where
  untrusted : s.confirmed = false
  unoffered : s.offered = none
  moved : ∀ key, before.key = some key → s.key ≠ some key
  held : kept → s.clientRandom = offer.clientRandom ∧ s.key = some offer.key ∧
    s.hello = some offer.hello ∧ s.replay = {}
  lost : ¬ kept → s.key ≠ some offer.key

/-- An offer beside a confirmed key, and what shows whether it was kept. -/
structure Held (before : Session Key) (offer : OfferedKey Key) (kept : Prop) (s : Session Key) :
    Prop where
  trusted : s.confirmed = true
  clientRandom : s.clientRandom = before.clientRandom
  key : s.key = before.key
  hello : s.hello = before.hello
  held : kept → s.offered = some offer
  lost : ¬ kept → ∀ offer', s.offered = some offer' → offer'.key ≠ offer.key

section
variable {suite : Suite Key} {secret fresh : List UInt8} {s before : Session Key}
  {offer : OfferedKey Key} {record : List UInt8} {kept : Prop}

theorem answered?_eq_none_iff {random : List UInt8} : s.answered? random = none ↔
    (s.clientRandom = random → s.hello = none) ∧
      ∀ offer, s.offered = some offer → offer.clientRandom ≠ random := by
  unfold answered?
  rw [Option.orElse_eq_orElse, Option.orElse_eq_or, Option.or_eq_none_iff]
  refine and_congr ?_ ?_
  · by_cases own : s.clientRandom = random <;> simp [own]
  · cases s.offered with
    | none => simp
    | some offer => by_cases same : offer.clientRandom = random <;> simp [same]

theorem greeting?_of_head (hello : record.head? = some Record.clientHello) :
    greeting? record = helloRandom? record := if_pos hello

theorem greeting?_of_other (other : ¬ record.head? = some Record.clientHello) :
    greeting? record = none := if_neg other

/-- A hello that takes no random bytes was answered before. -/
theorem answered_of_known (old : s.needsRandom record = false) {random : List UInt8}
    (states : helloRandom? record = some random) : s.answered? random ≠ none := by
  intro unanswered
  have needed := needsRandom_iff.mpr ⟨random, states, unanswered⟩
  rw [old] at needed
  contradiction

/-! ### What a hello does to it -/

theorem Taken.answerHello (taken : Taken before offer kept s)
    (newer : s.needsRandom record = true → (offerTo suite secret (record.drop 1) fresh).key ≠ offer.key ∧
      before.key ≠ some (offerTo suite secret (record.drop 1) fresh).key) :
    Taken before offer (kept ∧ ∀ r ∈ helloRandom? record, r = offer.clientRandom)
      (s.answerHello suite secret fresh record).1 := by
  have result := answerHello_answered suite secret fresh s record
  generalize (s.answerHello suite secret fresh record).1 = s' at result
  cases result with
  | known old =>
    refine ⟨taken.untrusted, taken.unoffered, taken.moved, fun both => taken.held both.1, ?_⟩
    intro gone
    by_cases still : kept
    · obtain ⟨clientRandom, _, _, _⟩ := taken.held still
      refine absurd ⟨still, fun random states => ?_⟩ gone
      by_contra other
      refine answered_of_known old states (answered?_eq_none_iff.mpr ⟨fun own => ?_, ?_⟩)
      · exact absurd (own.symm.trans clientRandom) other
      · simp [taken.unoffered]
    · exact taken.lost still
  | offered _ _ trusted =>
    rw [taken.untrusted] at trusted
    contradiction
  | @taken random states unanswered _ =>
    have new := newer (needsRandom_iff.mpr ⟨random, states, unanswered⟩)
    rw [(helloRandom?_eq_some states).1] at new
    refine ⟨taken.untrusted, taken.unoffered, ?_, ?_, ?_⟩
    · rintro key had have'
      rw [← Option.some.inj have'] at had
      exact new.2 had
    · rintro ⟨still, same⟩
      obtain ⟨clientRandom, _, known, _⟩ := taken.held still
      have own : s.clientRandom = random := clientRandom.trans (same random states).symm
      rw [(answered?_eq_none_iff.mp unanswered).1 own] at known
      contradiction
    · intro _ same
      exact new.1 (Option.some.inj same)

theorem Held.answerHello (holds : Held before offer kept s) (answered : before.hello ≠ none)
    (newer : s.needsRandom record = true →
      (offerTo suite secret (record.drop 1) fresh).key ≠ offer.key) :
    Held before offer
      (kept ∧ ∀ r ∈ helloRandom? record, r = offer.clientRandom ∨ r = before.clientRandom)
      (s.answerHello suite secret fresh record).1 := by
  have result := answerHello_answered suite secret fresh s record
  generalize (s.answerHello suite secret fresh record).1 = s' at result
  cases result with
  | known old =>
    refine ⟨holds.trusted, holds.clientRandom, holds.key, holds.hello,
      fun both => holds.held both.1, ?_⟩
    intro gone
    by_cases still : kept
    · refine absurd ⟨still, fun random states => ?_⟩ gone
      by_contra other
      refine answered_of_known old states (answered?_eq_none_iff.mpr ⟨fun own => ?_, ?_⟩)
      · exact absurd (Or.inr (own.symm.trans holds.clientRandom)) other
      · intro offer' offers same
        rw [holds.held still] at offers
        rw [← Option.some.inj offers] at same
        exact other (Or.inl same.symm)
    · exact holds.lost still
  | @offered random states unanswered trusted =>
    have new := newer (needsRandom_iff.mpr ⟨random, states, unanswered⟩)
    rw [(helloRandom?_eq_some states).1] at new
    refine ⟨trusted, holds.clientRandom, holds.key, holds.hello, ?_, ?_⟩
    · rintro ⟨still, same⟩
      obtain ⟨unknown, others⟩ := answered?_eq_none_iff.mp unanswered
      rcases same random states with offered | current
      · exact absurd offered.symm (others offer (holds.held still))
      · have none := unknown (holds.clientRandom.trans current.symm)
        exact absurd (holds.hello.symm.trans none) answered
    · rintro _ offer' offers
      rw [← Option.some.inj offers]
      exact new
  | taken _ _ untrusted =>
    rw [holds.trusted] at untrusted
    contradiction

/-! ### What application data does to it, if only the earlier key opens any -/

theorem Taken.openBody (taken : Taken before offer kept s) (now : Nat)
    (older : ∀ key body, s.opening? suite record = some (key, body) → before.key = some key) :
    Taken before offer kept (s.openBody suite now record).1 := by
  cases opens : s.opening? suite record with
  | none =>
    rw [openBody_of_unopened opens]
    exact taken
  | some found =>
    obtain ⟨key, body⟩ := found
    have had := older key body opens
    have result := openBody_opened suite now s record
    rw [opens] at result
    generalize (s.openBody suite now record).1 = s' at result
    cases result with
    | current keyed => exact absurd keyed (taken.moved key had)
    | offered offers =>
      rw [taken.unoffered] at offers
      contradiction

theorem Held.openBody (holds : Held before offer kept s) (now : Nat)
    (apart : ∀ offer', s.offered = some offer' → s.key ≠ some offer'.key)
    (older : ∀ key body, s.opening? suite record = some (key, body) → before.key = some key) :
    Held before offer kept (s.openBody suite now record).1 := by
  cases opens : s.opening? suite record with
  | none =>
    rw [openBody_of_unopened opens]
    exact holds
  | some found =>
    obtain ⟨key, body⟩ := found
    have had := older key body opens
    have result := openBody_opened suite now s record
    rw [opens] at result
    generalize (s.openBody suite now record).1 = s' at result
    cases result with
    | current => exact ⟨rfl, holds.clientRandom, holds.key, holds.hello, holds.held, holds.lost⟩
    | offered offers => exact absurd (holds.key.trans had) (apart _ offers)

/-! ### The offer itself -/

/-- An offer in one place or the other. -/
def Awaits (before : Session Key) (offer : OfferedKey Key) (kept : Prop) (s : Session Key) : Prop :=
  if before.confirmed = true then Held before offer kept s else Taken before offer kept s

/-- Random bytes that leave an offer where it is: its own, and those of the key it stands beside. -/
def Spares (before : Session Key) (offer : OfferedKey Key) (random : List UInt8) : Prop :=
  random = offer.clientRandom ∨ before.confirmed = true ∧ random = before.clientRandom

instance (before : Session Key) (offer : OfferedKey Key) (random : List UInt8) :
    Decidable (Spares before offer random) :=
  inferInstanceAs (Decidable (_ ∨ _ ∧ _))

theorem awaits_offer (needed : s.needsRandom record = true)
    (trusted : s.offered ≠ none → s.confirmed = true)
    (newer : s.key ≠ some (offerTo suite secret (record.drop 1) fresh).key) :
    Awaits s (offerTo suite secret (record.drop 1) fresh) True
      (s.answerHello suite secret fresh record).1 := by
  have result := answerHello_answered suite secret fresh s record
  generalize (s.answerHello suite secret fresh record).1 = s' at result
  unfold Awaits
  cases result with
  | known old =>
    rw [needed] at old
    contradiction
  | offered stated _ confirmed =>
    rw [if_pos confirmed, (helloRandom?_eq_some stated).1]
    exact ⟨confirmed, rfl, rfl, rfl, fun _ => rfl, fun never => absurd trivial never⟩
  | taken stated _ untrusted =>
    have unoffered : s.offered = none := by
      by_contra offers
      rw [trusted offers] at untrusted
      contradiction
    rw [(helloRandom?_eq_some stated).1] at newer
    rw [if_neg (by simp [untrusted]), (helloRandom?_eq_some stated).1]
    refine ⟨untrusted, unoffered, ?_, fun _ => ⟨rfl, rfl, rfl, rfl⟩, fun never => absurd trivial never⟩
    rintro key had has
    rw [← Option.some.inj has] at had
    exact newer had

theorem reply_of_needed (needed : s.needsRandom record = true) :
    (s.answerHello suite secret fresh record).2 =
      some (offerTo suite secret (record.drop 1) fresh).hello := by
  obtain ⟨random, stated, unanswered⟩ := needsRandom_iff.mp needed
  rw [(helloRandom?_eq_some stated).1]
  simp only [answerHello, stated, unanswered]
  split <;> rfl

theorem Awaits.congr {kept' : Prop} (awaits : Awaits before offer kept s) (same : kept ↔ kept') :
    Awaits before offer kept' s :=
  propext same ▸ awaits

theorem Awaits.answerHello (awaits : Awaits before offer kept s)
    (answered : before.confirmed = true → before.hello ≠ none)
    (newer : s.needsRandom record = true → (offerTo suite secret (record.drop 1) fresh).key ≠ offer.key ∧
      before.key ≠ some (offerTo suite secret (record.drop 1) fresh).key) :
    Awaits before offer (kept ∧ ∀ r ∈ helloRandom? record, Spares before offer r)
      (s.answerHello suite secret fresh record).1 := by
  unfold Awaits at awaits ⊢
  unfold Spares
  split
  · rename_i confirmed
    rw [if_pos confirmed] at awaits
    simp only [confirmed, true_and]
    exact awaits.answerHello (answered confirmed) fun needed => (newer needed).1
  · rename_i unconfirmed
    rw [if_neg unconfirmed] at awaits
    simp only [unconfirmed, Bool.false_eq_true, false_and, or_false]
    exact awaits.answerHello newer

theorem Awaits.openBody (awaits : Awaits before offer kept s) (now : Nat)
    (apart : ∀ offer', s.offered = some offer' → s.key ≠ some offer'.key)
    (older : ∀ key body, s.opening? suite record = some (key, body) → before.key = some key) :
    Awaits before offer kept (s.openBody suite now record).1 := by
  unfold Awaits at awaits ⊢
  split
  · rename_i confirmed
    rw [if_pos confirmed] at awaits
    exact awaits.openBody now apart older
  · rename_i unconfirmed
    rw [if_neg unconfirmed] at awaits
    exact awaits.openBody now older

theorem Awaits.heed (awaits : Awaits before offer kept s) (now : Nat)
    (answered : before.confirmed = true → before.hello ≠ none)
    (apart : ∀ offer', s.offered = some offer' → s.key ≠ some offer'.key)
    (newer : record.head? = some Record.clientHello → s.needsRandom record = true →
      (offerTo suite secret (record.drop 1) fresh).key ≠ offer.key ∧
        before.key ≠ some (offerTo suite secret (record.drop 1) fresh).key)
    (older : record.head? = some Record.application →
      ∀ key body, s.opening? suite record = some (key, body) → before.key = some key) :
    Awaits before offer (kept ∧ ∀ r ∈ greeting? record, Spares before offer r)
      (s.heed suite secret fresh now record) := by
  unfold Session.heed
  split
  · rename_i hello
    rw [greeting?_of_head hello]
    exact awaits.answerHello answered (newer hello)
  · rename_i other
    have same : kept ↔ kept ∧ ∀ r ∈ greeting? record, Spares before offer r := by
      simp [greeting?_of_other other]
    split
    · rename_i data
      exact (awaits.openBody now apart (older data)).congr same
    · exact awaits.congr same

theorem Awaits.sealBody (awaits : Awaits before offer kept s) (now : Nat) (body : List UInt8) :
    Awaits before offer kept (s.sealBody suite now body).1 := by
  cases keyed : s.key with
  | none => rwa [sealBody_unkeyed keyed]
  | some key =>
    rw [sealBody_keyed keyed]
    unfold Awaits at awaits ⊢
    split
    · rename_i confirmed
      rw [if_pos confirmed] at awaits
      exact ⟨awaits.trusted, awaits.clientRandom, awaits.key, awaits.hello, awaits.held, awaits.lost⟩
    · rename_i unconfirmed
      rw [if_neg unconfirmed] at awaits
      exact ⟨awaits.untrusted, awaits.unoffered, awaits.moved, awaits.held, awaits.lost⟩

/-- A record under the offered key opens as long as the offer is kept, and never after. -/
theorem Awaits.opening? [Decidable kept] (ideal : suite.Ideal) (awaits : Awaits before offer kept s)
    (other : before.key ≠ some offer.key) (number : UInt64) (body : List UInt8) :
    s.opening? suite (Record.applicationOf suite offer.key number body) =
      if kept then some (offer.key, body) else none := by
  unfold Awaits at awaits
  split at awaits
  · have apart : s.key ≠ some offer.key := awaits.key ▸ other
    split
    · rename_i still
      exact opening?_of_offered ideal (awaits.held still) apart
    · rename_i gone
      exact opening?_of_neither ideal apart (awaits.lost gone)
  · split
    · rename_i still
      obtain ⟨_, keyed, _, window⟩ := awaits.held still
      exact opening?_of_current ideal keyed (by rw [window]; rfl)
    · rename_i gone
      refine opening?_of_neither ideal (awaits.lost gone) fun offer' offers => ?_
      rw [awaits.unoffered] at offers
      contradiction

/-! ### The client -/

theorem take_serverHelloOf {key : Key} {clientRandom serverRandom : List UInt8}
    (client : clientRandom.length = Record.randomLength)
    (server : serverRandom.length = Record.randomLength) :
    (Record.serverHelloOf suite key clientRandom serverRandom).take Record.serverHelloHeaderLength =
      Record.serverHelloHeader clientRandom serverRandom := by
  have length : (Record.serverHelloHeader clientRandom serverRandom).length =
      Record.serverHelloHeaderLength := by
    simp only [Record.serverHelloHeader, List.cons_append, List.length_cons, List.length_append,
      client, server]
    rfl
  rw [Record.serverHelloOf, ← length, List.take_left]

/-- A client that takes an answer seals its first body under the answer's key. -/
theorem first_record_of_taken {client : Session Key} {clientRandom serverRandom body : List UInt8}
    (short : clientRandom.length = Record.randomLength)
    (long : serverRandom.length = Record.randomLength)
    (takes : client.takes suite secret (offerTo suite secret clientRandom serverRandom).hello = true)
    (now now' : Nat) :
    ((client.acceptHello suite secret now
        (offerTo suite secret clientRandom serverRandom).hello).sealBody suite now' body).2 =
      some (Record.applicationOf suite (offerTo suite secret clientRandom serverRandom).key 0
        body) := by
  have header : (offerTo suite secret clientRandom serverRandom).hello.take
      Record.serverHelloHeaderLength = Record.serverHelloHeader clientRandom serverRandom :=
    take_serverHelloOf short long
  have own : client.clientRandom = clientRandom := by
    unfold Session.takes at takes
    simp only [header, Bool.and_eq_true, beq_iff_eq] at takes
    rw [← takes.1.1.2, Record.serverHelloHeader, List.cons_append, List.drop_one, List.tail_cons,
      ← short, List.take_left]
  have random : serverRandomOf (offerTo suite secret clientRandom serverRandom).hello =
      serverRandom := by
    rw [serverRandomOf, header, Record.serverHelloHeader, List.cons_append, Nat.add_comm,
      List.drop_succ_cons, ← short, List.drop_left]
  rw [acceptHello_taken takes, record_sealBody rfl, own, random]
  rfl

end

end Cohort.Session
