import Cohort.Membership.Reception
import Cohort.Proofs.Membership.Pieces

/-! What a datagram can do to a member. It speaks for the address that it comes from, and for one member
there: a response or a suspicion becomes one event, in the name of that member, and a heartbeat is
answered to that member and nobody else. Whatever else comes in is counted and forgotten. -/

namespace Cohort.Manager

/-- Nothing changes but counters. -/
def Counts (m n : Manager) : Prop := ∃ statistics, n = { m with statistics := statistics }

theorem Counts.trans {m n k : Manager} (first : Counts m n) (second : Counts n k) : Counts m k := by
  obtain ⟨_, rfl⟩ := first
  obtain ⟨statistics, rfl⟩ := second
  exact ⟨statistics, rfl⟩

theorem counts_count (m : Manager) (counter : Counter) : Counts m (m.count counter) := ⟨_, rfl⟩

/-- A datagram is a message of a kind for datagrams from another member, and comes from that member's own
address. -/
structure Speaks (m : Manager) (source : Net.Endpoint) (data : List UInt8) (sender : Member)
    (message : Message) : Prop where
  decodes : Codec.decode .current data = .ok message
  carried : message.kind.isDatagram = true
  claimed : message.sender = some sender
  address : sender.membershipAddress = source
  foreign : sender.same m.self = false

/-- What a payload tells the detector of the member that sent it. -/
def tells (sender : Member) : Payload → Option Detector.Event
  | .heartbeatResponse request => some (.heartbeatResponse sender request)
  | .suspect suspects => some (.suspectReceived sender suspects)
  | _ => none

/-- A payload asks this incarnation of a member, and no other, for a heartbeat. -/
def AsksBack (m : Manager) (payload : Payload) (request : UInt64) : Prop :=
  ∃ target, payload = .heartbeatRequest request target ∧ target.same m.self = true

/-- The answer to a heartbeat, in the schema that the member which asked for it understands. -/
def heartbeatAnswer (m : Manager) (sender : Member) (request : UInt64) : Except CodecFault (List UInt8) :=
  Codec.encode (Version.current.common sender.version)
    ⟨some m.self, some sender, .heartbeatResponse request⟩

/-- A piece of work is the last one, and changes nothing but counters. -/
def Settles {α : Type} (m : Manager) (piece : Manager × Procedure.Stop Manager α) : Prop :=
  Counts m piece.1 ∧ ∃ result, piece.2 = .done result

/-- What becomes of a datagram. -/
inductive Received (m : Manager) (source : Net.Endpoint) (data : List UInt8)
    (piece : Manager × Procedure.Stop Manager (Except Refusal Unit)) : Prop where
  /-- It is counted, and that is all. -/
  | counted (settles : Settles m piece)
      (mute : ∀ sender message, Speaks m source data sender message →
        tells sender message.payload = none ∧ ∀ request, m.AsksBack message.payload request →
          ∃ fault, m.heartbeatAnswer sender request = .error fault)
  /-- It brings the detector one event, in the name of its sender. -/
  | told (sender : Member) (message : Message) (event : Detector.Event) (before : Manager)
      (speaks : Speaks m source data sender message)
      (told : tells sender message.payload = some event) (counts : Counts m before)
      (fed : piece = (before.feed event, .done (.ok ())))
  /-- It is answered, at the address that it came from. -/
  | answered (sender : Member) (message : Message) (request : UInt64) (bytes : List UInt8)
      (next : Except TransportFault Unit → Reaction) (speaks : Speaks m source data sender message)
      (asks : m.AsksBack message.payload request)
      (encoded : m.heartbeatAnswer sender request = .ok bytes) (counts : Counts m piece.1)
      (sends : piece.2 = .waiting (.datagram source bytes) next)
      (afterwards : ∀ outcome n, Settles n ((next outcome).run n))

/-! ### The checks -/

theorem datagramSender_eq_ok {source : Net.Endpoint} {message : Message} {sender : Member} :
    datagramSender source message = .ok sender ↔ message.kind.isDatagram = true ∧
      message.sender = some sender ∧ sender.membershipAddress = source := by
  unfold datagramSender
  cases message.kind.isDatagram with
  | false => simp
  | true =>
    cases message.sender with
    | none => simp
    | some claimed =>
      by_cases own : claimed.membershipAddress = source
      · simp only [own, Bool.not_true, Bool.false_eq_true, if_false, if_true, Except.ok.injEq,
          Option.some.injEq, true_and]
        exact ⟨fun same => ⟨same, same ▸ own⟩, And.left⟩
      · simp only [own, Bool.not_true, Bool.false_eq_true, if_false, reduceCtorEq, Option.some.injEq,
          true_and, false_iff]
        rintro ⟨rfl, is⟩
        exact own is

section
variable {m : Manager} {source : Net.Endpoint} {data : List UInt8} {sender : Member} {message : Message}

theorem speaks_iff (decoded : Codec.decode .current data = .ok message) (other : Message) :
    Speaks m source data sender other ↔
      other = message ∧ datagramSender source message = .ok sender ∧ sender.same m.self = false := by
  rw [datagramSender_eq_ok]
  constructor
  · rintro ⟨decodes, carried, claimed, address, foreign⟩
    obtain rfl : message = other := Except.ok.inj (decoded.symm.trans decodes)
    exact ⟨rfl, ⟨carried, claimed, address⟩, foreign⟩
  · rintro ⟨rfl, ⟨carried, claimed, address⟩, foreign⟩
    exact ⟨decoded, carried, claimed, address, foreign⟩

/-- A datagram that does not speak for anybody is not more than counted. -/
theorem received_refused {piece : Manager × Procedure.Stop Manager (Except Refusal Unit)}
    (settles : Settles m piece) (refused : ∀ sender message, ¬ Speaks m source data sender message) :
    Received m source data piece :=
  .counted settles fun sender message speaks => absurd speaks (refused sender message)

/-- Nor is one that neither tells nor asks anything. -/
theorem received_mute {piece : Manager × Procedure.Stop Manager (Except Refusal Unit)}
    (settles : Settles m piece) (speaks : Speaks m source data sender message)
    (untold : tells sender message.payload = none)
    (unasked : ∀ request, m.AsksBack message.payload request →
      ∃ fault, m.heartbeatAnswer sender request = .error fault) : Received m source data piece := by
  refine .counted settles fun other again speaks' => ?_
  obtain ⟨-, own, -⟩ := (speaks_iff speaks.decodes message).mp speaks
  obtain ⟨same, checked, -⟩ := (speaks_iff speaks.decodes again).mp speaks'
  subst same
  obtain rfl : sender = other := Except.ok.inj (own.symm.trans checked)
  exact ⟨untold, unasked⟩

/-! ### What it says -/

theorem run_get_bind {α : Type} (n : Manager) (f : Manager → Act α) : (get >>= f).run n = (f n).run n := rfl

theorem run_encode (n : Manager) (version : Version) (message : Message) :
    (encode version message).run n = match Codec.encode version message with
      | .error fault => (n, .done (.error (.codec fault)))
      | .ok bytes => (n.count .serializations, .done (.ok bytes)) := by
  unfold encode
  cases Codec.encode version message <;> rfl

/-- How far a payload gets in the piece of work that begins to send it. -/
theorem run_sendDatagram (n : Manager) (target : Member) (payload : Payload) :
    (sendDatagram target payload).run n =
      match Codec.encode (Version.current.common target.version) ⟨some n.self, some target, payload⟩ with
      | .error fault => (n, .done (.error (.codec fault)))
      | .ok bytes => (n.count .serializations,
          .waiting (.datagram target.membershipAddress bytes) (sent bytes.length)) := by
  unfold sendDatagram
  rw [run_get_bind]
  change Procedure.run (Procedure.bind _ _) n = _
  rw [Procedure.run_bind, run_encode]
  cases Codec.encode (Version.current.common target.version) ⟨some n.self, some target, payload⟩ with
  | error fault => rfl
  | ok bytes => rfl

theorem run_answer (n : Manager) (sender : Member) (request : UInt64) :
    ((sendDatagram sender (.heartbeatResponse request)).bind (answered .heartbeatResponsesSent)).run n =
      match n.heartbeatAnswer sender request with
      | .error fault => (n, .done (.error (.unanswered (.codec fault))))
      | .ok bytes => (n.count .serializations, .waiting (.datagram sender.membershipAddress bytes)
          fun outcome => (sent bytes.length outcome).bind (answered .heartbeatResponsesSent)) := by
  rw [Procedure.run_bind, run_sendDatagram]
  unfold heartbeatAnswer
  cases Codec.encode (Version.current.common sender.version)
      ⟨some n.self, some sender, .heartbeatResponse request⟩ with
  | error fault => rfl
  | ok bytes => rfl

theorem heartbeatAnswer_counts {n : Manager} (counts : Counts m n) (sender : Member) (request : UInt64) :
    n.heartbeatAnswer sender request = m.heartbeatAnswer sender request := by
  obtain ⟨_, rfl⟩ := counts
  rfl

/-- Whatever becomes of an answer on its way, only counters tell. -/
theorem settles_answer (size : Nat) (outcome : Except TransportFault Unit) (n : Manager) :
    Settles n (((sent size outcome).bind (answered .heartbeatResponsesSent)).run n) := by
  cases outcome with
  | ok _ => exact ⟨⟨_, rfl⟩, _, rfl⟩
  | error fault => exact ⟨⟨_, rfl⟩, _, rfl⟩

/-- A request is answered if it is for this incarnation and the answer can be put into bytes. -/
theorem received_request {n : Manager} {request : UInt64} {target : Member} (counts : Counts m n)
    (speaks : Speaks m source data sender message)
    (asks : message.payload = .heartbeatRequest request target) :
    Received m source data ((onDatagramPayload sender (.heartbeatRequest request target)).run n) := by
  have counted := counts.trans (counts_count n .heartbeatRequestsReceived)
  have only : ∀ {asked}, m.AsksBack message.payload asked →
      asked = request ∧ target.same m.self = true := by
    rintro asked ⟨other, same, back⟩
    rw [asks] at same
    cases same
    exact ⟨rfl, back⟩
  have goes : (onDatagramPayload sender (.heartbeatRequest request target)).run n =
      (if target.same (n.count .heartbeatRequestsReceived).self then
        (sendDatagram sender (.heartbeatResponse request)).bind (answered .heartbeatResponsesSent)
      else .done (.ok ())).run (n.count .heartbeatRequestsReceived) := rfl
  have self : (n.count .heartbeatRequestsReceived).self = m.self := by
    obtain ⟨_, same⟩ := counted
    rw [same]
  rw [goes, self]
  cases meant : target.same m.self with
  | false =>
    refine received_mute ⟨counted, _, rfl⟩ speaks (by rw [asks]; rfl) fun asked back => ?_
    rw [(only back).2] at meant
    contradiction
  | true =>
    rw [if_pos rfl, run_answer, heartbeatAnswer_counts counted]
    cases encoded : m.heartbeatAnswer sender request with
    | error fault =>
      refine received_mute ⟨counted, _, rfl⟩ speaks (by rw [asks]; rfl) fun asked back => ?_
      exact ⟨fault, (only back).1 ▸ encoded⟩
    | ok bytes =>
      have here := speaks.address
      subst here
      exact .answered sender message request bytes _ speaks ⟨target, asks, meant⟩ encoded
        (counted.trans (counts_count _ .serializations)) rfl (settles_answer bytes.length)

/-- What another member says from its own address. -/
theorem received_payload {n : Manager} (counts : Counts m n)
    (speaks : Speaks m source data sender message) :
    Received m source data ((onDatagramPayload sender message.payload).run n) := by
  have carried := speaks.carried
  unfold Message.kind at carried
  cases content : message.payload with
  | heartbeatRequest request target => exact received_request counts speaks content
  | heartbeatResponse request =>
    exact .told sender message (.heartbeatResponse sender request) _ speaks (by rw [content]; rfl)
      (counts.trans (counts_count n .heartbeatResponsesReceived)) rfl
  | suspect suspects =>
    exact .told sender message (.suspectReceived sender suspects) _ speaks (by rw [content]; rfl)
      (counts.trans (counts_count n .suspectsReceived)) rfl
  | _ =>
    rw [content] at carried
    contradiction

end

/-- Whatever bytes come from whatever address: they bring the detector at most one event, and only in the
name of another member whose address this is; they are answered only there, and only if they ask for this
very incarnation of the member; and anything else is no more than counted. -/
theorem datagrams_speak_for_source (m : Manager) (source : Net.Endpoint) (data : List UInt8) :
    Received m source data ((onDatagram source data).run m) := by
  unfold onDatagram
  cases decoded : Codec.decode .current data with
  | error fault =>
    refine received_refused ⟨⟨_, rfl⟩, _, rfl⟩ fun sender message speaks => ?_
    rw [speaks.decodes] at decoded
    contradiction
  | ok message =>
    dsimp only
    cases checked : datagramSender source message with
    | error refusal =>
      refine received_refused ⟨⟨_, rfl⟩, _, rfl⟩ fun sender other speaks => ?_
      rw [((speaks_iff decoded other).mp speaks).2.1] at checked
      contradiction
    | ok sender =>
      change Received m source data (Procedure.run (if sender.same m.self then _ else _) _)
      cases own : sender.same m.self with
      | true =>
        refine received_refused ⟨⟨_, rfl⟩, _, rfl⟩ fun other again speaks => ?_
        obtain ⟨-, same, foreign⟩ := (speaks_iff decoded again).mp speaks
        obtain rfl : sender = other := Except.ok.inj (checked.symm.trans same)
        rw [own] at foreign
        contradiction
      | false =>
        have speaks := (speaks_iff (m := m) decoded message).mpr ⟨rfl, checked, own⟩
        exact received_payload ⟨_, rfl⟩ speaks

end Cohort.Manager
