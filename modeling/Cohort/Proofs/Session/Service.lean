import Cohort.Session.Basic

/-! What the server's end of a session does with a hello and with an application record, case by case. -/

namespace Cohort.Session

variable {Key : Type} {suite : Suite Key} {secret : List UInt8} {s : Session Key}
  {record : List UInt8}

/-- The key that opens a record, and its body: the current key if the number is fresh to it, or else the
one on offer. -/
def opening? (suite : Suite Key) (s : Session Key) (record : List UInt8) :
    Option (Key × List UInt8) :=
  if record.length < Record.overhead then none
  else match s.openCurrent suite record with
    | some body => s.key.map (·, body)
    | none => s.offered.bind fun offer => (bodyUnder suite offer.key record).map (offer.key, ·)

/-- What becomes of a session that is handed an application record, and the key and body it found. -/
inductive Opened (suite : Suite Key) (now : Nat) (s : Session Key) (record : List UInt8) :
    Session Key → Option (Key × List UInt8) → Prop where
  | none : Opened suite now s record s none
  | current {key : Key} {body : List UInt8} (keyed : s.key = some key)
      (fresh : s.replay.isFresh (recordNumber record) = true)
      (opens : bodyUnder suite key record = some body) :
      Opened suite now s record
        { s with
          replay := s.replay.mark (recordNumber record)
          lastActivity := now
          confirmed := true }
        (some (key, body))
  | offered {offer : OfferedKey Key} {body : List UInt8} (offers : s.offered = some offer)
      (opens : bodyUnder suite offer.key record = some body) :
      Opened suite now s record (s.promote offer (recordNumber record) now) (some (offer.key, body))

theorem openCurrent_eq_some_iff {body : List UInt8} : s.openCurrent suite record = some body ↔
    ∃ key, s.key = some key ∧ s.replay.isFresh (recordNumber record) = true ∧
      bodyUnder suite key record = some body := by
  unfold openCurrent
  constructor
  · intro found
    split at found
    · rename_i fresh
      split at found
      · rename_i key keyed
        exact ⟨key, keyed, fresh, found⟩
      · contradiction
    · contradiction
  · rintro ⟨key, keyed, fresh, opens⟩
    simp only [keyed, fresh, opens, if_true]

theorem openBody_opened (suite : Suite Key) (now : Nat) (s : Session Key) (record : List UInt8) :
    Opened suite now s record (s.openBody suite now record).1 (s.opening? suite record) := by
  unfold openBody opening?
  split
  · exact .none
  · dsimp only
    cases found : s.openCurrent suite record with
    | some body =>
      obtain ⟨key, keyed, fresh, opens⟩ := openCurrent_eq_some_iff.mp found
      have named : s.key.map (·, body) = some (key, body) := by rw [keyed, Option.map_some]
      dsimp only
      rw [named]
      exact .current keyed fresh opens
    | none =>
      dsimp only
      cases offers : s.offered with
      | none => exact .none
      | some offer =>
        cases opens : bodyUnder suite offer.key record with
        | none => simpa only [opens, Option.bind_some, Option.map_none] using .none
        | some body =>
          simpa only [opens, Option.bind_some, Option.map_some] using .offered offers opens

theorem openBody_body (suite : Suite Key) (now : Nat) (s : Session Key) (record : List UInt8) :
    (s.openBody suite now record).2 = (s.opening? suite record).map (·.2) := by
  unfold openBody opening?
  split
  · rfl
  · dsimp only
    cases found : s.openCurrent suite record with
    | some body =>
      obtain ⟨key, keyed, _, _⟩ := openCurrent_eq_some_iff.mp found
      simp only [keyed, Option.map_some]
    | none =>
      dsimp only
      cases s.offered with
      | none => rfl
      | some offer => cases opens : bodyUnder suite offer.key record <;> simp [opens]

theorem openBody_of_unopened {now : Nat} (unopened : s.opening? suite record = none) :
    (s.openBody suite now record).1 = s := by
  have opened := openBody_opened suite now s record
  rw [unopened] at opened
  generalize (s.openBody suite now record).1 = s' at opened
  cases opened
  rfl

theorem bodyUnder_of_opening? {key : Key} {body : List UInt8}
    (opens : s.opening? suite record = some (key, body)) :
    bodyUnder suite key record = some body := by
  have opened := openBody_opened suite 0 s record
  generalize (s.openBody suite 0 record).1 = s' at opened
  rw [opens] at opened
  cases opened with
  | current _ _ under => exact under
  | offered _ under => exact under

theorem helloRandom?_eq_some {random : List UInt8} (states : helloRandom? record = some random) :
    record.drop 1 = random ∧ random.length = Record.randomLength := by
  unfold helloRandom? at states
  split at states
  · rename_i length
    have stated := Option.some.inj states
    refine ⟨stated, ?_⟩
    rw [← stated, List.length_drop, length]
    rfl
  · contradiction

/-- What becomes of a session that is handed a hello. -/
inductive Answered (suite : Suite Key) (secret fresh : List UInt8) (s : Session Key)
    (record : List UInt8) : Session Key → Prop where
  | known (old : s.needsRandom record = false) : Answered suite secret fresh s record s
  | offered {random : List UInt8} (states : helloRandom? record = some random)
      (unanswered : s.answered? random = none) (trusted : s.confirmed = true) :
      Answered suite secret fresh s record
        { s with offered := some ⟨random, suite.derive secret random fresh,
            Record.serverHelloOf suite (suite.derive secret random fresh) random fresh⟩ }
  | taken {random : List UInt8} (states : helloRandom? record = some random)
      (unanswered : s.answered? random = none) (untrusted : s.confirmed = false) :
      Answered suite secret fresh s record
        { s with
          clientRandom := random
          serverRandom := fresh
          key := some (suite.derive secret random fresh)
          replay := {}
          hello := some (Record.serverHelloOf suite (suite.derive secret random fresh) random fresh)
          handshake := .established }

theorem answerHello_answered (suite : Suite Key) (secret fresh : List UInt8) (s : Session Key)
    (record : List UInt8) :
    Answered suite secret fresh s record (s.answerHello suite secret fresh record).1 := by
  unfold answerHello
  cases states : helloRandom? record with
  | none => exact .known (by simp [needsRandom, states])
  | some random =>
    dsimp only
    cases known : s.answered? random with
    | some hello => exact .known (by simp [needsRandom, states, known])
    | none =>
      dsimp only
      split
      · rename_i trusted
        exact .offered states known trusted
      · rename_i untrusted
        exact .taken states known (by simpa using untrusted)

theorem role_answerHello (suite : Suite Key) (secret fresh : List UInt8) (s : Session Key)
    (record : List UInt8) : (s.answerHello suite secret fresh record).1.role = s.role := by
  have answered := answerHello_answered suite secret fresh s record
  generalize (s.answerHello suite secret fresh record).1 = s' at answered
  cases answered <;> rfl

theorem role_openBody (suite : Suite Key) (now : Nat) (s : Session Key) (record : List UInt8) :
    (s.openBody suite now record).1.role = s.role := by
  have opened := openBody_opened suite now s record
  generalize (s.openBody suite now record).1 = s', s.opening? suite record = found at opened
  cases opened <;> rfl

/-- What the server's end makes of a record. -/
def heed (suite : Suite Key) (secret fresh : List UInt8) (now : Nat) (s : Session Key)
    (record : List UInt8) : Session Key :=
  if record.head? = some Record.clientHello then (s.answerHello suite secret fresh record).1
  else if record.head? = some Record.application then (s.openBody suite now record).1
  else s

theorem role_heed (suite : Suite Key) (secret fresh : List UInt8) (now : Nat) (s : Session Key)
    (record : List UInt8) : (s.heed suite secret fresh now record).role = s.role := by
  unfold heed
  split
  · exact role_answerHello suite secret fresh s record
  · split
    · exact role_openBody suite now s record
    · rfl

/-- A hello that takes random bytes states other ones than any that the session has answered. -/
theorem needsRandom_iff : s.needsRandom record = true ↔
    ∃ random, helloRandom? record = some random ∧ s.answered? random = none := by
  unfold needsRandom
  cases states : helloRandom? record with
  | none => simp
  | some random => simp

theorem length_of_needsRandom (needed : s.needsRandom record = true) :
    (record.drop 1).length = Record.randomLength := by
  obtain ⟨random, states, _⟩ := needsRandom_iff.mp needed
  obtain ⟨drops, length⟩ := helloRandom?_eq_some states
  rw [drops, length]

end Cohort.Session
