import Cohort.Proofs.Message.Codec

/-! Messages cut short and messages with something behind them. Every field of a message stands behind
its length, so wherever the bytes of a message are cut, the reader misses some; what follows a message
is never looked at; and whatever the bytes are, the reader makes a message of them or says what is wrong
with them. -/

namespace Cohort

namespace Codec

open Wire Reader

/-! ### Bytes that run out -/

/-- A reader wants more bytes than there are. -/
def RunsOut {α : Type} (x : Except CodecFault α) : Prop :=
  ∃ needed available, available < needed ∧ x = .error (.underflow needed available)

theorem RunsOut.bind {α β : Type} {x : Except CodecFault α} (short : RunsOut x)
    (next : α → Except CodecFault β) : RunsOut (x >>= next) := by
  obtain ⟨needed, available, fewer, rfl⟩ := short
  exact ⟨needed, available, fewer, rfl⟩

theorem splitBytes_runsOut {count : Nat} {input : List UInt8} (short : input.length < count) :
    RunsOut (splitBytes count input) :=
  ⟨count, input.length, short, if_pos short⟩

section
variable {front rest data : List UInt8} {size : Nat}

theorem splitBytes_take {count : Nat} (length : front.length = count) (whole : count ≤ size) :
    splitBytes count ((front ++ rest).take size) = .ok (front, rest.take (size - count)) := by
  rw [List.take_append, List.take_of_length_le (length ▸ whole), length, splitBytes_append length]

theorem splitBytes_take_runsOut {count : Nat} (short : size < count) :
    RunsOut (splitBytes count (rest.take size)) :=
  splitBytes_runsOut (Nat.lt_of_le_of_lt (List.length_take_le size rest) short)

/-- The bytes of a field that is behind its length. -/
def field (data : List UInt8) : List UInt8 := bigEndian 4 data.length ++ data

theorem length_field (data : List UInt8) : (field data).length = 4 + data.length := by
  rw [field, List.length_append, length_bigEndian]

theorem readField_take (fits : data.length < UInt32.size) (whole : (field data).length ≤ size) :
    readField ((field data ++ rest).take size) = .ok (data, rest.take (size - (field data).length)) := by
  rw [List.take_append, List.take_of_length_le whole]
  exact readField_append _ fits

theorem readField_runsOut (fits : data.length < UInt32.size) (short : size < (field data).length) :
    RunsOut (readField ((field data ++ rest).take size)) := by
  rw [length_field] at short
  rw [field, List.append_assoc, readField]
  rcases Nat.lt_or_ge size 4 with begun | counted
  · exact (splitBytes_take_runsOut begun).bind _
  · rw [splitBytes_take (length_bigEndian 4 _) counted, ok_bind]
    have count : ofBigEndian (bigEndian 4 data.length) = data.length := ofBigEndian_of_lt fits
    dsimp only
    rw [count]
    exact splitBytes_take_runsOut (by omega)

end

/-! ### Messages cut short -/

theorem written_eq (version : Version) (message : Message) :
    written version message = bigEndian 2 message.kind.number.toNat ++ (bigEndian 2 version.ordinal.toNat
      ++ (field (option member (message.forVersion version).sender)
      ++ (field (option member (message.forVersion version).recipient)
      ++ (field (writePayload (message.forVersion version).payload) ++ [])))) := by
  rw [List.append_nil]
  rfl

theorem decode_cut {connection version : Version} {message : Message}
    (numbered : MessageKind.ofNumber? message.kind.number = some message.kind)
    (fits : Fits version message) (older : ¬ connection < version) {size : Nat} (begun : 0 < size)
    (cut : size < (written version message).length) :
    RunsOut (decode connection ((written version message).take size)) := by
  have nonempty : ((written version message).take size).isEmpty = false := by
    have length : 0 < ((written version message).take size).length := by
      rw [List.length_take]
      omega
    cases bytes : (written version message).take size with
    | nil => rw [bytes] at length; cases length
    | cons b bytes => rfl
  rw [decode, nonempty]
  rw [written_eq] at cut ⊢
  simp only [List.length_append, length_bigEndian, List.length_nil] at cut
  simp only [Bool.false_eq_true, if_false]
  -- One case for each of the five parts in which the cut can be; the parts before it are read.
  rcases Nat.lt_or_ge size 2 with short | whole
  · exact (splitBytes_take_runsOut short).bind _
  rw [splitBytes_take (length_bigEndian 2 _) whole, ok_bind]
  simp only [toUInt16_bigEndian, numbered]
  rcases Nat.lt_or_ge (size - 2) 2 with short | whole
  · exact (splitBytes_take_runsOut short).bind _
  rw [splitBytes_take (length_bigEndian 2 _) whole, ok_bind]
  simp only [toUInt16_bigEndian, ofOrdinal?_ordinal, if_neg older]
  generalize behind : size - 2 - 2 = size at *
  rcases Nat.lt_or_ge size (field (option member (message.forVersion version).sender)).length
    with short | whole
  · exact (readField_runsOut fits.sender short).bind _
  rw [readField_take fits.sender whole, ok_bind, parseBody_member fits.sender, ok_bind]
  rcases Nat.lt_or_ge (size - (field (option member (message.forVersion version).sender)).length)
    (field (option member (message.forVersion version).recipient)).length with short | whole
  · exact (readField_runsOut fits.recipient short).bind _
  rw [readField_take fits.recipient whole, ok_bind, parseBody_member fits.recipient, ok_bind]
  exact (readField_runsOut fits.payload (by omega)).bind _

/-! ### Bytes behind a message -/

theorem of_splitBytes {count : Nat} {input bytes rest : List UInt8}
    (taken : splitBytes count input = .ok (bytes, rest)) :
    bytes = input.take count ∧ rest = input.drop count := by
  unfold splitBytes at taken
  split at taken
  · cases taken
  · cases taken
    exact ⟨rfl, rfl⟩

theorem splitBytes_more {count : Nat} {input bytes rest : List UInt8}
    (taken : splitBytes count input = .ok (bytes, rest)) (more : List UInt8) :
    splitBytes count (input ++ more) = .ok (bytes, rest ++ more) := by
  have length := length_of_splitBytes taken
  obtain ⟨rfl, rfl⟩ := of_splitBytes taken
  have parts : input ++ more = input.take count ++ (input.drop count ++ more) := by
    rw [← List.append_assoc, List.take_append_drop]
  rw [parts, splitBytes_append length]

theorem readField_more {input data rest : List UInt8} (taken : readField input = .ok (data, rest))
    (more : List UInt8) : readField (input ++ more) = .ok (data, rest ++ more) := by
  obtain ⟨⟨size, input⟩, counted, taken⟩ := of_bind_eq_ok taken
  rw [readField, splitBytes_more counted, ok_bind]
  exact splitBytes_more taken more

/-- What follows a message changes nothing in it. -/
theorem decode_more {connection : Version} {bytes : List UInt8} {message : Message}
    (decoded : decode connection bytes = .ok message) (more : List UInt8) :
    decode connection (bytes ++ more) = .ok message := by
  rw [decode_eq_ok_iff] at decoded ⊢
  obtain ⟨nonempty, numbered, known, versioned, understood, older, senderField, senderRead,
    recipientField, recipientRead, payloadField, payloadRead⟩ := decoded
  have nonempty' : (bytes ++ more).isEmpty = false := by
    cases bytes with
    | nil => cases nonempty
    | cons b bytes => rfl
  exact .parts nonempty' (splitBytes_more numbered more) known (splitBytes_more versioned more) understood
    older (readField_more senderField more) senderRead (readField_more recipientField more) recipientRead
    (readField_more payloadField more) payloadRead

/-! ### Bytes that are no message -/

/-- The number of the kind that some bytes state. -/
def statedKind (input : List UInt8) : UInt16 := (ofBigEndian (input.take 2)).toUInt16

/-- The ordinal of the schema that some bytes state. -/
def statedSchema (input : List UInt8) : UInt16 := (ofBigEndian ((input.drop 2).take 2)).toUInt16

/-- Why a connection of schema `connection` makes no message of some bytes. -/
inductive Refuses (connection : Version) (input : List UInt8) : CodecFault → Prop
  | empty (nothing : input = []) : Refuses connection input .empty
  | underflow {needed available : Nat} (fewer : available < needed) (there : available ≤ input.length) :
    Refuses connection input (.underflow needed available)
  | unknownKind (unknown : MessageKind.ofNumber? (statedKind input) = none) :
    Refuses connection input (.unknownKind (statedKind input))
  | unknownSchema (unknown : Version.ofOrdinal? (statedSchema input) = none) :
    Refuses connection input (.unknownSchema (statedSchema input))
  | newerSchema {schema : Version} (stated : Version.ofOrdinal? (statedSchema input) = some schema)
    (newer : connection < schema) : Refuses connection input (.newerSchema schema connection)
  | member {data : List UInt8} {fault : Wire.Fault} (inside : data <:+: input)
    (bad : parse (Reader.option Reader.member) data = .error fault) : Refuses connection input (.body fault)
  | payload {kind : MessageKind} {data : List UInt8} {fault : Wire.Fault}
    (stated : MessageKind.ofNumber? (statedKind input) = some kind) (inside : data <:+: input)
    (bad : parse (readPayload kind) data = .error fault) : Refuses connection input (.body fault)

section
variable {connection : Version} {input part : List UInt8} {fault : CodecFault}

theorem refuses_of_splitBytes {count : Nat} (inside : part <:+ input)
    (failed : splitBytes count part = .error fault) : Refuses connection input fault := by
  unfold splitBytes at failed
  split at failed
  · rename_i fewer
    cases failed
    exact .underflow fewer inside.length_le
  · cases failed

theorem refuses_of_readField (inside : part <:+ input) (failed : readField part = .error fault) :
    Refuses connection input fault := by
  rcases of_bind_eq_error failed with failed | ⟨⟨size, rest⟩, counted, failed⟩
  · exact refuses_of_splitBytes inside failed
  · obtain ⟨-, rfl⟩ := of_splitBytes counted
    exact refuses_of_splitBytes ((List.drop_suffix 4 part).trans inside) failed

theorem inside_of_readField {data rest : List UInt8} (inside : part <:+ input)
    (taken : readField part = .ok (data, rest)) : data <:+: input ∧ rest <:+ input := by
  obtain ⟨⟨size, middle⟩, counted, taken⟩ := of_bind_eq_ok taken
  obtain ⟨-, rfl⟩ := of_splitBytes counted
  obtain ⟨rfl, rfl⟩ := of_splitBytes taken
  have behind := (List.drop_suffix 4 part).trans inside
  constructor
  · exact (List.take_prefix _ _).isInfix.trans behind.isInfix
  · exact (List.drop_suffix _ _).trans behind

theorem of_parseBody_eq_error {α : Type} {read : Reader α} (failed : parseBody read part = .error fault) :
    ∃ own, fault = .body own ∧ parse read part = .error own := by
  unfold parseBody at failed
  cases parsed : parse read part with
  | ok value => rw [parsed] at failed; cases failed
  | error own =>
    rw [parsed] at failed
    cases failed
    exact ⟨own, rfl, rfl⟩

/-- Whatever the bytes are, decoding makes a message of them or refuses them for a reason that holds. -/
theorem refuses_of_decode (failed : decode connection input = .error fault) :
    Refuses connection input fault := by
  rw [decode] at failed
  split at failed
  · rename_i nothing
    cases failed
    exact .empty (List.isEmpty_iff.mp nothing)
  rcases of_bind_eq_error failed with failed | ⟨⟨number, rest⟩, taken, failed⟩
  · exact refuses_of_splitBytes List.suffix_rfl failed
  obtain ⟨rfl, rfl⟩ := of_splitBytes taken
  dsimp only at failed
  split at failed
  case h_2 unknown =>
    cases failed
    exact .unknownKind (Option.eq_none_iff_forall_ne_some.mpr unknown)
  rename_i kind known
  rcases of_bind_eq_error failed with failed | ⟨⟨ordinal, rest⟩, taken, failed⟩
  · exact refuses_of_splitBytes (List.drop_suffix 2 input) failed
  obtain ⟨rfl, rfl⟩ := of_splitBytes taken
  dsimp only at failed
  split at failed
  case h_2 unknown =>
    cases failed
    exact .unknownSchema (Option.eq_none_iff_forall_ne_some.mpr unknown)
  rename_i schema understood
  split at failed
  · rename_i newer
    cases failed
    exact .newerSchema understood newer
  have inside : (input.drop 2).drop 2 <:+ input := (List.drop_suffix 2 _).trans (List.drop_suffix 2 input)
  rcases of_bind_eq_error failed with failed | ⟨⟨data, rest⟩, taken, failed⟩
  · exact refuses_of_readField inside failed
  obtain ⟨within, behind⟩ := inside_of_readField inside taken
  rcases of_bind_eq_error failed with failed | ⟨sender, -, failed⟩
  · obtain ⟨own, rfl, bad⟩ := of_parseBody_eq_error failed
    exact .member within bad
  rcases of_bind_eq_error failed with failed | ⟨⟨data, rest⟩, taken, failed⟩
  · exact refuses_of_readField behind failed
  obtain ⟨within, behind⟩ := inside_of_readField behind taken
  rcases of_bind_eq_error failed with failed | ⟨recipient, -, failed⟩
  · obtain ⟨own, rfl, bad⟩ := of_parseBody_eq_error failed
    exact .member within bad
  rcases of_bind_eq_error failed with failed | ⟨⟨data, rest⟩, taken, failed⟩
  · exact refuses_of_readField behind failed
  obtain ⟨within, -⟩ := inside_of_readField behind taken
  rcases of_bind_eq_error failed with failed | ⟨payload, -, failed⟩
  · obtain ⟨own, rfl, bad⟩ := of_parseBody_eq_error failed
    exact .payload known within bad
  · cases failed

end

/-! ### What a connection makes of parts, of wholes and of anything else -/

/-- Every message is written as one that has a number of its own: an application's type beyond the last
has the number of the last. -/
theorem exists_numbered (message : Message) :
    ∃ other : Message, MessageKind.ofNumber? other.kind.number = some other.kind ∧
      ∀ version, encode version other = encode version message := by
  obtain ⟨sender, recipient, payload⟩ := message
  by_cases beyond : ∃ type data, payload = .application type data ∧ MessageKind.lastApplication < type
  · obtain ⟨type, data, rfl, beyond⟩ := beyond
    refine ⟨⟨sender, recipient, .application MessageKind.lastApplication data⟩, ?_, fun version => ?_⟩
    · refine MessageKind.ofNumber?_number fun last typed => ?_
      cases typed
      exact UInt16.le_refl _
    · have number : (MessageKind.application type).number = 0xFFFF := if_pos beyond
      have last : (MessageKind.application MessageKind.lastApplication).number = 0xFFFF := by decide
      simp only [encode, Message.kind, Payload.kind, number, last, Message.forVersion, Payload.forVersion,
        writePayload]
  · refine ⟨⟨sender, recipient, payload⟩, MessageKind.ofNumber?_number fun type typed => ?_, fun _ => rfl⟩
    cases payload with
    | application own data =>
      cases typed
      exact UInt16.not_lt.mp fun beyond' => beyond ⟨type, data, rfl, beyond'⟩
    | _ => cases typed

section
variable {connection version : Version} {message : Message} {bytes : List UInt8}

theorem decode_part (encoded : encode version message = .ok bytes) (older : version ≤ connection)
    {part : List UInt8} (inside : part <+: bytes) (cut : part ≠ bytes) (begun : part ≠ []) :
    RunsOut (decode connection part) := by
  obtain ⟨other, numbered, same⟩ := exists_numbered message
  rw [← same version] at encoded
  obtain ⟨fits, rfl⟩ := of_encode encoded
  rw [List.prefix_iff_eq_take.mp inside]
  apply decode_cut numbered fits (UInt16.not_lt.mpr older)
  · exact List.length_pos_iff.mpr begun
  · exact Nat.lt_of_le_of_ne inside.length_le fun length => cut (inside.eq_of_length length)

theorem decode_whole (encoded : encode version message = .ok bytes) (older : version ≤ connection) :
    ∃ read, decode connection bytes = .ok read ∧ (message.Built → read = message.forVersion version) := by
  have still : ¬ connection < version := UInt16.not_lt.mpr older
  obtain ⟨other, numbered, same⟩ := exists_numbered message
  obtain ⟨fits, rfl⟩ := of_encode ((same version).trans encoded)
  refine ⟨other.forVersion version, ?_, ?_⟩
  · rw [decode_written connection numbered fits, if_neg still]
  · intro built
    obtain ⟨fits', written⟩ := of_encode encoded
    have first := decode_written connection numbered fits
    rw [written, decode_written connection (numbered_of_built built) fits', if_neg still, if_neg still]
      at first
    exact (Except.ok.inj first).symm

end

/-- Bytes of a message that a connection understands cannot be cut without its noticing; it reads the
message from the whole of them, and what follows is nothing to it. Of any bytes at all it makes a message
or an error of the codec, which names what is wrong with them. -/
theorem truncation_detected (connection : Version) :
    (∀ version message bytes, version ≤ connection → encode version message = .ok bytes →
      (∀ part, part <+: bytes → part ≠ bytes →
        part = [] ∧ decode connection part = .error .empty ∨
        part ≠ [] ∧ RunsOut (decode connection part)) ∧
      ∃ read, decode connection bytes = .ok read ∧
        (message.Built → read = message.forVersion version) ∧
        ∀ extra, decode connection (bytes ++ extra) = .ok read) ∧
    ∀ input, (∃ read, decode connection input = .ok read) ∨
      ∃ fault, (decode connection input).mapError ServiceError.codec = .error (.codec fault) ∧
        Refuses connection input fault := by
  constructor
  · intro version message bytes older encoded
    constructor
    · intro part inside cut
      by_cases begun : part = []
      · exact .inl ⟨begun, begun ▸ rfl⟩
      · exact .inr ⟨begun, decode_part encoded older inside cut begun⟩
    · obtain ⟨read, decoded, same⟩ := decode_whole encoded older
      exact ⟨read, decoded, same, decode_more decoded⟩
  · intro input
    cases decoded : decode connection input with
    | ok read => exact .inl ⟨read, rfl⟩
    | error fault => exact .inr ⟨fault, rfl, refuses_of_decode decoded⟩

/-- An application's message of a type beyond the last. -/
def beyondLast : Message := .of (.application 0xffff [1, 2])

/-- Cut in the middle of its payload, and followed by a byte of something else. -/
theorem truncation_detected_beyondLast :
    ∃ bytes read, encode .v1 beyondLast = .ok bytes ∧ bytes.length = 28 ∧
      RunsOut (decode .current (bytes.take 20)) ∧ decode .current (bytes ++ [7]) = .ok read := by
  have fits : Fits .v1 beyondLast := ⟨by decide +kernel, by decide +kernel, by decide +kernel⟩
  have encoded := encode_of_fits fits
  have length : (written .v1 beyondLast).length = 28 := by decide +kernel
  obtain ⟨parts, read, -, -, more⟩ := (truncation_detected .current).1 _ _ _ (by decide) encoded
  have short : ((written .v1 beyondLast).take 20).length = 20 := by rw [List.length_take, length]; rfl
  refine ⟨_, read, encoded, length, ?_, more [7]⟩
  rcases parts _ (List.take_prefix 20 _) (ne_of_apply_ne List.length (by rw [short, length]; decide))
    with ⟨nothing, -⟩ | ⟨-, runsOut⟩
  · rw [nothing] at short
    cases short
  · exact runsOut

end Codec

end Cohort
