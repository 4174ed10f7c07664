import Cohort.Message.Codec
import Cohort.Proofs.Member.Identity
import Cohort.Proofs.Message.Schema
import Cohort.Proofs.Wire.Economy

/-! Messages as bytes and back. What a schema writes of a message, every schema at least as new reads,
and an older one refuses; and whatever the current schema could read, also of bytes that no writer
makes, it writes again so that it reads the same. -/

namespace Cohort

namespace Codec

open Wire Reader

theorem gives_suspicion (s : Suspicion) : Gives readSuspicion (writeSuspicion s) s :=
  gives_bind (gives_member s.suspect) (gives_map (Suspicion.mk s.suspect) (gives_text s.reason))

theorem length_suspicion (s : Suspicion) : 0 < (writeSuspicion s).length := by
  have := length_member s.suspect
  simp only [writeSuspicion, List.length_append]
  omega

theorem gives_answer (answer : JoinAnswer) : Gives readAnswer (writeAnswer answer) answer := by
  cases answer with
  | accepted view => exact gives_bind (gives_word32 0) (gives_map JoinAnswer.accepted (gives_view view))
  | redirect m => exact gives_bind (gives_word32 1) (gives_map JoinAnswer.redirect (gives_member m))
  | rejected reason => exact gives_bind (gives_word32 2) (gives_map JoinAnswer.rejected (gives_text reason))

theorem gives_payload (payload : Payload) :
    Gives (readPayload payload.kind) (writePayload payload) payload := by
  cases payload with
  | handshake m => exact gives_map Payload.handshake (gives_member m)
  | heartbeatRequest request target =>
    exact gives_bind (gives_word64 request)
      (gives_map (Payload.heartbeatRequest request) (gives_member target))
  | heartbeatResponse request => exact gives_map Payload.heartbeatResponse (gives_word64 request)
  | suspect suspects =>
    exact gives_map Payload.suspect (gives_list length_suspicion fun s _ => gives_suspicion s)
  | finalCheckRequest request target =>
    exact gives_bind (gives_word64 request)
      (gives_map (Payload.finalCheckRequest request) (gives_member target))
  | finalCheckResponse request => exact gives_map Payload.finalCheckResponse (gives_word64 request)
  | joinRequest m => exact gives_map Payload.joinRequest (gives_member m)
  | joinResponse answer => exact gives_map Payload.joinResponse (gives_answer answer)
  | leaveRequest m reason =>
    exact gives_bind (gives_member m) (gives_map (Payload.leaveRequest m) (gives_text reason))
  | removeMember m reason =>
    exact gives_bind (gives_member m) (gives_map (Payload.removeMember m) (gives_text reason))
  | installView view => exact gives_map Payload.installView (gives_view view)
  | application type data => exact gives_map (Payload.application type) (gives_bytes data)

theorem parseBody_of_gives {α : Type} {read : Reader α} {data : List UInt8} {value : α}
    (given : Gives read data value) (fits : data.length < UInt32.size) :
    parseBody read data = .ok value := by
  have taken := given (Nat.lt_trans fits (by decide)) []
  rw [List.append_nil] at taken
  simp only [parseBody, parse, taken]
  rfl

theorem splitBytes_append {count : Nat} {bytes rest : List UInt8} (length : bytes.length = count) :
    splitBytes count (bytes ++ rest) = .ok (bytes, rest) := by
  subst length
  have enough : ¬ (bytes ++ rest).length < bytes.length := by
    rw [List.length_append]
    omega
  simp only [splitBytes, if_neg enough, List.take_left, List.drop_left]

theorem readField_append {data : List UInt8} (rest : List UInt8) (fits : data.length < UInt32.size) :
    readField (bigEndian 4 data.length ++ data ++ rest) = .ok (data, rest) := by
  have size : ofBigEndian (bigEndian 4 data.length) = data.length := ofBigEndian_of_lt fits
  rw [readField, List.append_assoc, splitBytes_append (length_bigEndian 4 data.length)]
  change splitBytes (ofBigEndian (bigEndian 4 data.length)) (data ++ rest) = _
  rw [size, splitBytes_append rfl]

/-- Every part of a message, as a schema knows it, has a length of four bytes. -/
structure Fits (version : Version) (message : Message) : Prop where
  sender : (option member (message.forVersion version).sender).length < UInt32.size
  recipient : (option member (message.forVersion version).recipient).length < UInt32.size
  payload : (writePayload (message.forVersion version).payload).length < UInt32.size

theorem Fits.of_current {message : Message}
    (sender : (option member message.sender).length < UInt32.size)
    (recipient : (option member message.recipient).length < UInt32.size)
    (payload : (writePayload message.payload).length < UInt32.size) : Fits .current message := by
  constructor <;> rwa [Message.forVersion_current]

/-- The bytes of a message that fits. -/
def written (version : Version) (message : Message) : List UInt8 :=
  let field (data : List UInt8) := bigEndian 4 data.length ++ data
  let message' := message.forVersion version
  bigEndian 2 message.kind.number.toNat ++ (bigEndian 2 version.ordinal.toNat
    ++ (field (option member message'.sender) ++ (field (option member message'.recipient)
    ++ field (writePayload message'.payload))))

theorem isEmpty_written (version : Version) (message : Message) :
    (written version message).isEmpty = false := by
  have length : 2 ≤ (written version message).length := by
    rw [written, List.length_append, length_bigEndian]
    exact Nat.le_add_right _ _
  cases bytes : written version message with
  | nil => rw [bytes] at length; cases length
  | cons b bytes => rfl

theorem encode_of_fits {version : Version} {message : Message} (fits : Fits version message) :
    encode version message = .ok (written version message) := by
  simp only [encode, writeField, if_pos fits.sender, if_pos fits.recipient, if_pos fits.payload,
    written, List.append_assoc]
  rfl

theorem of_writeField {data field : List UInt8} (wrote : writeField data = .ok field) :
    data.length < UInt32.size ∧ field = bigEndian 4 data.length ++ data := by
  unfold writeField at wrote
  split at wrote
  · rename_i fits
    exact ⟨fits, (Except.ok.inj wrote).symm⟩
  · contradiction

/-- What can be written fits. -/
theorem of_encode {version : Version} {message : Message} {data : List UInt8}
    (encoded : encode version message = .ok data) :
    Fits version message ∧ data = written version message := by
  unfold encode at encoded
  obtain ⟨sender, wroteSender, encoded⟩ := of_bind_eq_ok encoded
  obtain ⟨recipient, wroteRecipient, encoded⟩ := of_bind_eq_ok encoded
  obtain ⟨payload, wrotePayload, encoded⟩ := of_bind_eq_ok encoded
  have fits : Fits version message :=
    ⟨(of_writeField wroteSender).1, (of_writeField wroteRecipient).1, (of_writeField wrotePayload).1⟩
  rw [(of_writeField wroteSender).2, (of_writeField wroteRecipient).2, (of_writeField wrotePayload).2]
    at encoded
  refine ⟨fits, ?_⟩
  have same := Except.ok.inj encoded
  rw [← same]
  simp only [written, List.append_assoc]

theorem toUInt16_bigEndian (n : UInt16) : (ofBigEndian (bigEndian 2 n.toNat)).toUInt16 = n := by
  have value : ofBigEndian (bigEndian 2 n.toNat) = n.toNat := ofBigEndian_of_lt n.toNat_lt
  rw [value]
  exact UInt16.ofNat_toNat

theorem ofOrdinal?_ordinal (version : Version) : Version.ofOrdinal? version.ordinal = some version := by
  cases version <;> rfl

theorem parseBody_member {m : Option Member} (fits : (option member m).length < UInt32.size) :
    parseBody (Reader.option Reader.member) (option member m) = .ok m :=
  parseBody_of_gives (gives_option _ fun m _ => gives_member m) fits

theorem parseBody_payload {version : Version} {message : Message} (fits : Fits version message) :
    parseBody (readPayload message.kind) (writePayload (message.forVersion version).payload) =
      .ok (message.forVersion version).payload := by
  rw [← Message.kind_forVersion version message]
  exact parseBody_of_gives (gives_payload _) fits.payload

theorem decode_written (connection : Version) {version : Version} {message : Message}
    (numbered : MessageKind.ofNumber? message.kind.number = some message.kind)
    (fits : Fits version message) :
    decode connection (written version message) =
      if connection < version then .error (.newerSchema version connection)
      else .ok (message.forVersion version) := by
  have last := readField_append [] fits.payload
  rw [List.append_nil] at last
  rw [decode, isEmpty_written]
  simp only [Bool.false_eq_true, if_false, written, splitBytes_append (length_bigEndian 2 _), ok_bind,
    toUInt16_bigEndian, numbered, ofOrdinal?_ordinal, readField_append _ fits.sender,
    readField_append _ fits.recipient, last, parseBody_member fits.sender,
    parseBody_member fits.recipient, parseBody_payload fits]
  rfl

theorem numbered_of_built {message : Message} (built : message.Built) :
    MessageKind.ofNumber? message.kind.number = some message.kind := by
  refine MessageKind.ofNumber?_number fun type typed => ?_
  cases built with
  | protocol own =>
    rw [show Payload.kind _ = _ from typed] at own
    cases own
  | application made =>
    unfold Message.application at made
    split at made
    · cases made
    · split at made
      · cases made
      · rename_i inside
        cases made
        cases typed
        exact UInt16.not_lt.mp inside

/-- Bytes of a message are in one schema. -/
theorem schema_unique {message : Message} (built : message.Built) {frame : List UInt8} {v w : Version}
    (first : encode v message = .ok frame) (second : encode w message = .ok frame) : v = w := by
  obtain ⟨fits, rfl⟩ := of_encode first
  obtain ⟨fits', same⟩ := of_encode second
  have numbered := numbered_of_built built
  have refused (connection : Version) : connection < v ↔ connection < w := by
    have read := decode_written connection numbered fits
    rw [same, decode_written connection numbered fits'] at read
    by_cases older : connection < v <;> by_cases older' : connection < w <;>
      simp [older, older'] at read ⊢
  -- With two schemas, what the first of them reads decides.
  cases v <;> cases w <;> first | rfl | exact absurd (refused .v1) (by decide)

/-- Writing a message for a schema and reading it for a connection. -/
theorem read_of_written {version : Version} {message : Message} (built : message.Built)
    (fits : Fits version message) :
    ∃ bytes, encode version message = .ok bytes ∧ ∀ connection,
      (version ≤ connection →
        decode connection bytes = .ok (message.mapMembers (Member.forVersion version)) ∧
          (message.mapMembers (Member.forVersion version)).kind = message.kind) ∧
      (connection < version →
        decode connection bytes = .error (.newerSchema version connection)) := by
  refine ⟨_, encode_of_fits fits, fun connection => ?_⟩
  have decoded := decode_written connection (numbered_of_built built) fits
  rw [← Message.forVersion_eq, decoded]
  constructor
  · intro older
    have still : ¬ connection < version := UInt16.not_lt.mpr older
    rw [if_neg still]
    exact ⟨rfl, Message.kind_forVersion version message⟩
  · intro newer
    rw [if_pos newer]

/-- A member reports itself. -/
def confession (m : Member) : Message := { sender := some m, payload := .suspect [⟨m, "silent"⟩] }

def taggedPeer : Member := { Member.peer 7 with instanceTag := ⟨1, 2⟩, uniqueTag := some "a" }

theorem confession_read_untagged :
    ∃ bytes, encode .v1 (confession taggedPeer) = .ok bytes ∧
      decode .current bytes = .ok (confession (Member.peer 7)) := by
  have fits : Fits .v1 (confession taggedPeer) :=
    ⟨by decide +kernel, by decide +kernel, by decide +kernel⟩
  obtain ⟨bytes, written, read⟩ := read_of_written (.protocol rfl) fits
  exact ⟨bytes, written, ((read .current).1 (by decide)).1⟩

theorem length_of_splitBytes {count : Nat} {input bytes rest : List UInt8}
    (taken : splitBytes count input = .ok (bytes, rest)) : bytes.length = count := by
  unfold splitBytes at taken
  split at taken
  · cases taken
  · cases taken
    rw [List.length_take]
    omega

theorem ofLittleEndian_lt (bytes : List UInt8) : ofLittleEndian bytes < 0x100 ^ bytes.length := by
  induction bytes with
  | nil => decide
  | cons b bytes ih =>
    have small := b.toNat_lt
    rw [ofLittleEndian, List.length_cons, Nat.pow_succ']
    omega

theorem length_of_readField {input data rest : List UInt8}
    (taken : readField input = .ok (data, rest)) : data.length < UInt32.size := by
  obtain ⟨⟨size, input⟩, first, second⟩ := of_bind_eq_ok taken
  have count := ofLittleEndian_lt size.reverse
  rw [List.length_reverse, length_of_splitBytes first] at count
  rw [length_of_splitBytes second]
  exact count

theorem of_parseBody {α : Type} {read : Reader α} {data : List UInt8} {value : α}
    (parsed : parseBody read data = .ok value) : ∃ rest, read data = .ok (value, rest) := by
  unfold parseBody parse at parsed
  cases taken : read data with
  | error fault => rw [taken] at parsed; cases parsed
  | ok made =>
    rw [taken] at parsed
    cases parsed
    exact ⟨made.2, rfl⟩

theorem fits_of_parseBody {α : Type} {read : Reader α} {write : α → List UInt8}
    (affords : Affords 0 read fun a => (write a).length) {data : List UInt8} {value : α}
    (parsed : parseBody read data = .ok value) (fits : data.length < UInt32.size) :
    (write value).length < UInt32.size := by
  obtain ⟨rest, taken⟩ := of_parseBody parsed
  have spent := affords _ _ _ taken
  dsimp only at spent
  omega

theorem affords_suspicion : Affords 0 readSuspicion fun s => (writeSuspicion s).length := by
  refine affords_bind affords_member fun suspect => ?_
  refine affords_map affords_text fun reason => ?_
  simp only [writeSuspicion, List.length_append]
  omega

theorem affords_answer : Affords 0 readAnswer fun answer => (writeAnswer answer).length := by
  refine affords_bind affords_word32 fun tag => ?_
  have behind {data : List UInt8} (own : UInt32) :
      (Wire.word32 own ++ data).length ≤ 0 + (Wire.word32 tag).length + data.length := by
    simp only [List.length_append, Wire.word32, length_littleEndian]
    omega
  split
  · exact affords_map affords_view fun _ => behind 0
  split
  · exact affords_map affords_member fun _ => behind 1
  split
  · exact affords_map affords_text fun _ => behind 2
  · exact affords_fail

theorem affords_payload (kind : MessageKind) :
    Affords 0 (readPayload kind) fun payload => (writePayload payload).length := by
  have same {n : Nat} : n ≤ 0 + n := by omega
  have joined {bytes more : List UInt8} : (bytes ++ more).length ≤ 0 + bytes.length + more.length := by
    rw [List.length_append]
    omega
  cases kind with
  | handshake => exact affords_map affords_member fun _ => same
  | heartbeatRequest =>
    exact affords_bind affords_word64 fun _ => affords_map affords_member fun _ => joined
  | heartbeatResponse => exact affords_map affords_word64 fun _ => same
  | suspect => exact affords_map (affords_list affords_suspicion) fun _ => same
  | finalCheckRequest =>
    exact affords_bind affords_word64 fun _ => affords_map affords_member fun _ => joined
  | finalCheckResponse => exact affords_map affords_word64 fun _ => same
  | joinRequest => exact affords_map affords_member fun _ => same
  | joinResponse => exact affords_map affords_answer fun _ => same
  | leaveRequest =>
    exact affords_bind affords_member fun _ => affords_map affords_text fun _ => joined
  | removeMember =>
    exact affords_bind affords_member fun _ => affords_map affords_text fun _ => joined
  | installView => exact affords_map affords_view fun _ => same
  | application type => exact affords_map affords_bytes fun _ => same

theorem kind_of_readPayload {kind : MessageKind} {input rest : List UInt8} {payload : Payload}
    (taken : readPayload kind input = .ok (payload, rest)) : payload.kind = kind := by
  cases kind with
  | heartbeatRequest | finalCheckRequest | leaveRequest | removeMember =>
    obtain ⟨_, _, -, taken⟩ := Reader.of_bind_ok taken
    obtain ⟨_, _, -, taken⟩ := Reader.of_bind_ok taken
    cases taken
    rfl
  | _ =>
    obtain ⟨_, _, -, taken⟩ := Reader.of_bind_ok taken
    cases taken
    rfl

/-- Bytes that a connection makes a message of, part by part. -/
inductive Reads (connection : Version) (input : List UInt8) : Message → Prop where
  | parts {number ordinal senderData recipientData payloadData : List UInt8}
      {input₁ input₂ input₃ input₄ rest : List UInt8} {kind : MessageKind} {schema : Version}
      {sender recipient : Option Member} {payload : Payload}
      (nonempty : input.isEmpty = false)
      (numbered : splitBytes 2 input = .ok (number, input₁))
      (known : MessageKind.ofNumber? (ofBigEndian number).toUInt16 = some kind)
      (versioned : splitBytes 2 input₁ = .ok (ordinal, input₂))
      (understood : Version.ofOrdinal? (ofBigEndian ordinal).toUInt16 = some schema)
      (older : ¬ connection < schema)
      (senderField : readField input₂ = .ok (senderData, input₃))
      (senderRead : parseBody (Reader.option Reader.member) senderData = .ok sender)
      (recipientField : readField input₃ = .ok (recipientData, input₄))
      (recipientRead : parseBody (Reader.option Reader.member) recipientData = .ok recipient)
      (payloadField : readField input₄ = .ok (payloadData, rest))
      (payloadRead : parseBody (readPayload kind) payloadData = .ok payload) :
      Reads connection input { sender, recipient, payload }

theorem decode_eq_ok_iff {connection : Version} {input : List UInt8} {message : Message} :
    decode connection input = .ok message ↔ Reads connection input message := by
  constructor
  · intro decoded
    rw [decode] at decoded
    split at decoded
    case isTrue => cases decoded
    rename_i nonempty
    obtain ⟨⟨number, input₁⟩, numbered, decoded⟩ := of_bind_eq_ok decoded
    dsimp only at decoded
    split at decoded
    case h_2 => cases decoded
    rename_i kind known
    obtain ⟨⟨ordinal, input₂⟩, versioned, decoded⟩ := of_bind_eq_ok decoded
    dsimp only at decoded
    split at decoded
    case h_2 => cases decoded
    rename_i schema understood
    split at decoded
    case isTrue => cases decoded
    rename_i older
    obtain ⟨⟨senderData, input₃⟩, senderField, decoded⟩ := of_bind_eq_ok decoded
    obtain ⟨sender, senderRead, decoded⟩ := of_bind_eq_ok decoded
    obtain ⟨⟨recipientData, input₄⟩, recipientField, decoded⟩ := of_bind_eq_ok decoded
    obtain ⟨recipient, recipientRead, decoded⟩ := of_bind_eq_ok decoded
    obtain ⟨⟨payloadData, rest⟩, payloadField, decoded⟩ := of_bind_eq_ok decoded
    obtain ⟨payload, payloadRead, decoded⟩ := of_bind_eq_ok decoded
    cases decoded
    exact .parts (Bool.eq_false_iff.mpr nonempty) numbered known versioned understood older
      senderField senderRead recipientField recipientRead payloadField payloadRead
  · rintro ⟨nonempty, numbered, known, versioned, understood, older, senderField, senderRead,
      recipientField, recipientRead, payloadField, payloadRead⟩
    rw [decode, nonempty, numbered]
    simp only [Bool.false_eq_true, if_false, ok_bind, known, versioned, understood, if_neg older,
      senderField, senderRead, recipientField, recipientRead, payloadField, payloadRead]
    rfl

/-- What was read without fault has a number of its own and fits again. -/
theorem of_decode {connection : Version} {bytes : List UInt8} {message : Message}
    (decoded : decode connection bytes = .ok message) :
    MessageKind.ofNumber? message.kind.number = some message.kind ∧ Fits .current message := by
  cases decode_eq_ok_iff.mp decoded with
  | @parts number _ _ _ _ _ _ _ _ _ kind _ sender recipient payload nonempty numbered known versioned
      understood older senderField senderRead recipientField recipientRead payloadField payloadRead =>
    obtain ⟨rest, taken⟩ := of_parseBody payloadRead
    have sameKind : payload.kind = kind := kind_of_readPayload taken
    constructor
    · rw [Message.kind, sameKind]
      exact MessageKind.ofNumber?_number fun type typed =>
        MessageKind.numbered_of_ofNumber? (typed ▸ known)
    · exact Fits.of_current
        (fits_of_parseBody (affords_option affords_member) senderRead (length_of_readField senderField))
        (fits_of_parseBody (affords_option affords_member) recipientRead
          (length_of_readField recipientField))
        (fits_of_parseBody (affords_payload kind) payloadRead (length_of_readField payloadField))

/-- What was decoded, whatever the bytes, is written again and read back as it was. -/
theorem decode_again {bytes : List UInt8} {message : Message}
    (decoded : decode .current bytes = .ok message) :
    ∃ again, encode .current message = .ok again ∧ decode .current again = .ok message := by
  obtain ⟨numbered, fits⟩ := of_decode decoded
  refine ⟨_, encode_of_fits fits, ?_⟩
  rw [decode_written .current numbered fits, if_neg (by decide), Message.forVersion_current]

/-- A request to join in the older schema that no writer makes: an administrator asks to be preferred,
a tag of zero is written out, and bytes follow the member and the payload. -/
def foreignRequest : List UInt8 :=
  let field (data : List UInt8) := bigEndian 4 data.length ++ data
  bigEndian 2 7 ++ bigEndian 2 1 ++ field [0] ++ field [0] ++ field
    (ip (.v4 0x7f000001) ++ text "localhost" ++ word16 7 ++ word16 0 ++ word32 1
      ++ word8 Kind.adminOnly.code ++ signed32 1 ++ word16 1 ++ text "" ++ Wire.list text []
      ++ Wire.option text none ++ word32 0 ++ Wire.bool true ++ Wire.bool false ++ word8 10
      ++ word8 1 ++ word64 0 ++ word64 0 ++ Wire.bool false ++ Wire.option text none ++ [0xff]) ++ [0xff]

def administrator : Member :=
  { Member.peer 7 with kind := .adminOnly, version := .v1, preferred_may := fun asked => nomatch asked }

theorem foreignRequest_decode_again :
    decode .current foreignRequest = .ok (.of (.joinRequest administrator)) ∧
      ∃ again, encode .current (.of (.joinRequest administrator)) = .ok again ∧
        decode .current again = .ok (.of (.joinRequest administrator)) :=
  have decoded : decode .current foreignRequest = .ok (.of (.joinRequest administrator)) := rfl
  ⟨decoded, decode_again decoded⟩

end Codec

end Cohort
