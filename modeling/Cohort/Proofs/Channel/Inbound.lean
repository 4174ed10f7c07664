import Mathlib.Data.List.Induction
import Cohort.Channel.Inbound
import Cohort.Proofs.Message.Codec
import Cohort.Proofs.Message.Frame

/-! What an accepted connection hands on. However the bytes of a stream arrive and whenever they are looked
at, these are the messages in its frames behind the handshake, in their order, and the member that the
handshake named is the sender of each of them. -/

namespace Cohort.Inbound

/-- What happens at a connection. -/
inductive Move where
  | bytes (chunk : List UInt8)
  /-- The next frame is taken, if there is a whole one. -/
  | look
  deriving DecidableEq, Repr

/-- The message that a frame was. -/
def Arrival.message? : Arrival → Option Message
  | .message m => some m
  | .opening | .undecodable => none

/-- A connection with the frames taken from it, and the messages that it handed on. -/
structure Hearing where
  connection : Inbound := {}
  frames : List (List UInt8) := []
  messages : List Message := []
  deriving DecidableEq, Repr

namespace Hearing

def look (h : Hearing) : Hearing :=
  match h.connection.next? with
  | (connection, none) => { h with connection := connection }
  | (connection, some frame) =>
    let (connection, arrival) := connection.take frame
    { connection := connection
      frames := h.frames ++ [frame]
      messages := h.messages ++ arrival.message?.toList }

def step (h : Hearing) : Move → Hearing
  | .bytes chunk => { h with connection := h.connection.receive chunk }
  | .look => h.look

def after (moves : List Move) : Hearing := moves.foldl step {}

theorem after_append (moves more : List Move) : after (moves ++ more) = more.foldl step (after moves) :=
  List.foldl_append

end Hearing

def Move.chunk : Move → List UInt8
  | .bytes chunk => chunk
  | .look => []

/-- All bytes that arrived. -/
def arrived (moves : List Move) : List UInt8 := moves.flatMap Move.chunk

/-- What a frame says when a member has sent it, if it can be decoded in the schema of both sides. -/
def said? (identity : Member) (frame : List UInt8) : Option Message :=
  (Codec.decode (Version.current.common identity.version) frame).toOption.map fun message =>
    { message with sender := some identity }

/-- The messages of a whole stream: nothing if its first frame is no handshake, and else what the later ones
say. -/
def conversation : List (List UInt8) → List Message
  | [] => []
  | first :: later =>
    match handshake? first with
    | none => []
    | some identity => later.filterMap (said? identity)

theorem conversation_append {frames : List (List UInt8)} {identity : Member}
    (greeted : frames.head?.bind handshake? = some identity) (later : List (List UInt8)) :
    conversation (frames ++ later) = conversation frames ++ later.filterMap (said? identity) := by
  cases frames with
  | nil => contradiction
  | cons first rest =>
    have named : handshake? first = some identity := greeted
    simp only [List.cons_append, conversation, named, List.filterMap_append]

theorem conversation_of_stranger {first : List UInt8} (unnamed : handshake? first = none)
    (later : List (List UInt8)) : conversation (first :: later) = [] := by
  simp only [conversation, unnamed]

theorem sender_of_conversation {frames : List (List UInt8)} {m : Message} (said : m ∈ conversation frames) :
    m.sender = frames.head?.bind handshake? := by
  cases frames with
  | nil => contradiction
  | cons first later =>
    cases named : handshake? first with
    | none =>
      rw [conversation_of_stranger named] at said
      contradiction
    | some identity =>
      simp only [conversation, named] at said
      obtain ⟨frame, -, told⟩ := List.mem_filterMap.mp said
      obtain ⟨message, -, rfl⟩ := Option.map_eq_some_iff.mp told
      exact named.symm

/-! ### What a connection keeps -/

/-- The frames taken are the first of the stream, and what was handed on is what they say. Once the
connection has ended, no frame that may follow says anything. -/
structure Faithful (bytes : List UInt8) (h : Hearing) : Prop where
  follows : ∀ more, (Frame.cut (bytes ++ more)).frames =
    h.frames ++ (Frame.cut (h.connection.buffer ++ more)).frames
  told : h.messages = conversation h.frames
  named : h.connection.peer = h.frames.head?.bind handshake?
  greeted : h.connection.ended = false → h.connection.peer = none → h.frames = []
  silent : h.connection.ended = true → ∀ more,
    conversation (h.frames ++ (Frame.cut (h.connection.buffer ++ more)).frames) = h.messages

variable {bytes : List UInt8} {h : Hearing}

theorem Faithful.receive (faithful : Faithful bytes h) (chunk : List UInt8) :
    Faithful (bytes ++ chunk) (h.step (.bytes chunk)) := by
  constructor
  · intro more
    rw [List.append_assoc, faithful.follows (chunk ++ more), ← List.append_assoc]
    rfl
  · exact faithful.told
  · exact faithful.named
  · exact faithful.greeted
  · intro ended more
    have silent := faithful.silent ended (chunk ++ more)
    rw [← List.append_assoc] at silent
    exact silent

/-- A look at a connection that has not ended takes the next frame, if there is one. -/
inductive Looks (h : Hearing) : Hearing → Prop where
  | idles (ended : h.connection.ended = true) : Looks h h
  | waits (incomplete : Frame.next h.connection.buffer = .incomplete) : Looks h h
  | breaks (broken : Frame.next h.connection.buffer = .tooLong) :
      Looks h { h with connection := { h.connection with ended := true } }
  | meets {frame rest : List UInt8} {identity : Member} (going : h.connection.ended = false)
      (complete : Frame.next h.connection.buffer = .frame frame rest)
      (stranger : h.connection.peer = none) (named : handshake? frame = some identity) :
      Looks h { h with
        connection := { h.connection with buffer := rest, peer := some identity }
        frames := h.frames ++ [frame] }
  | refuses {frame rest : List UInt8} (going : h.connection.ended = false)
      (complete : Frame.next h.connection.buffer = .frame frame rest)
      (stranger : h.connection.peer = none) (unnamed : handshake? frame = none) :
      Looks h { h with
        connection := { h.connection with buffer := rest, ended := true }
        frames := h.frames ++ [frame] }
  | hears {frame rest : List UInt8} {identity : Member} (going : h.connection.ended = false)
      (complete : Frame.next h.connection.buffer = .frame frame rest)
      (known : h.connection.peer = some identity) :
      Looks h {
        connection := { h.connection with buffer := rest }
        frames := h.frames ++ [frame]
        messages := h.messages ++ (said? identity frame).toList }

theorem looks (h : Hearing) : Looks h h.look := by
  unfold Hearing.look next?
  by_cases ended : h.connection.ended = true
  · rw [if_pos ended]
    exact .idles ended
  · rw [if_neg ended]
    have going : h.connection.ended = false := Bool.eq_false_iff.mpr ended
    cases next : Frame.next h.connection.buffer with
    | incomplete => exact .waits next
    | tooLong => exact .breaks next
    | frame frame rest =>
      cases known : h.connection.peer with
      | none =>
        cases named : handshake? frame with
        | none => simpa [take, known, named, Arrival.message?] using Looks.refuses going next known named
        | some identity =>
          simpa [take, known, named, Arrival.message?] using Looks.meets going next known named
      | some identity =>
        have hears := Looks.hears going next known
        cases read : Codec.decode (Version.current.common identity.version) frame with
        | error fault =>
          simpa [take, known, read, said?, Arrival.message?, Except.toOption] using hears
        | ok message => simpa [take, known, read, said?, Arrival.message?, Except.toOption] using hears

theorem Faithful.looks {h' : Hearing} (faithful : Faithful bytes h) (look : Looks h h') :
    Faithful bytes h' := by
  have stream {frame rest : List UInt8} (complete : Frame.next h.connection.buffer = .frame frame rest)
      (more : List UInt8) : (Frame.cut (bytes ++ more)).frames =
        h.frames ++ [frame] ++ (Frame.cut (rest ++ more)).frames := by
    rw [faithful.follows, Frame.frames_of_frame (Frame.next_append_of_frame complete more)]
    simp
  cases look with
  | idles ended => exact faithful
  | waits incomplete => exact faithful
  | breaks broken =>
    -- Behind a frame that is too long nothing is found, whatever comes.
    have nothing (more : List UInt8) : (Frame.cut (h.connection.buffer ++ more)).frames = [] :=
      Frame.frames_of_tooLong (Frame.next_append_of_tooLong broken more)
    refine ⟨faithful.follows, faithful.told, faithful.named, nofun, ?_⟩
    intro _ more
    rw [nothing, List.append_nil]
    exact faithful.told.symm
  | meets going complete stranger named =>
    have first := faithful.greeted going stranger
    have quiet := faithful.told
    refine ⟨stream complete, ?_, ?_, nofun, ?_⟩
    · simp [quiet, first, conversation, named]
    · simp [first, named]
    · intro ended
      rw [going] at ended
      contradiction
  | refuses going complete stranger unnamed =>
    have first := faithful.greeted going stranger
    have quiet := faithful.told
    refine ⟨stream complete, ?_, ?_, nofun, ?_⟩
    · simp [quiet, first, conversation, unnamed]
    · simp [first, stranger, unnamed]
    · intro _ more
      simp [quiet, first, conversation, unnamed]
  | @hears frame rest identity going complete known =>
    have named : h.frames.head?.bind handshake? = some identity := faithful.named.symm.trans known
    refine ⟨stream complete, ?_, ?_, ?_, ?_⟩
    · rw [conversation_append named, ← faithful.told]
      cases told : said? identity frame <;> simp [told]
    · rw [List.head?_append, Option.or_of_isSome]
      · exact faithful.named
      · cases first : h.frames.head? <;> simp_all
    · intro _ stranger
      rw [known] at stranger
      contradiction
    · intro ended
      rw [going] at ended
      contradiction

theorem faithful_after (moves : List Move) : Faithful (arrived moves) (Hearing.after moves) := by
  induction moves using List.reverseRecOn with
  | nil => exact ⟨fun _ => rfl, rfl, rfl, fun _ _ => rfl, nofun⟩
  | append_singleton moves move ih =>
    rw [Hearing.after_append, arrived, List.flatMap_append, List.flatMap_singleton]
    cases move with
    | bytes chunk => exact ih.receive chunk
    | look =>
      rw [Move.chunk, List.append_nil]
      exact ih.looks (looks _)

/-! ### Looking often enough -/

/-- Frames that are there and not taken. -/
def Hearing.waiting (h : Hearing) : Nat := (Frame.cut h.connection.buffer).frames.length

/-- A look ends the connection, or takes the first of the frames that wait. -/
theorem Looks.ended_or_waiting {h' : Hearing} (look : Looks h h') :
    h'.connection.ended = true ∨ h'.waiting = h.waiting - 1 := by
  unfold Hearing.waiting
  cases look with
  | idles ended => exact .inl ended
  | waits incomplete => exact .inr (by rw [Frame.frames_of_incomplete incomplete]; rfl)
  | breaks broken => exact .inl rfl
  | refuses going complete stranger unnamed => exact .inl rfl
  | meets going complete stranger named => exact .inr (by rw [Frame.frames_of_frame complete]; rfl)
  | hears going complete known => exact .inr (by rw [Frame.frames_of_frame complete]; rfl)

theorem ended_look (ended : h.connection.ended = true) : h.look.connection.ended = true := by
  simp only [Hearing.look, next?, if_pos ended]
  exact ended

theorem ended_or_all_taken {count : Nat} (enough : h.connection.ended = true ∨ h.waiting ≤ count) :
    let later := (List.replicate count Move.look).foldl Hearing.step h
    later.connection.ended = true ∨ (Frame.cut later.connection.buffer).frames = [] := by
  induction count generalizing h with
  | zero => exact enough.imp_right fun none => List.length_eq_zero_iff.mp (Nat.le_zero.mp none)
  | succ count ih =>
    apply ih
    rcases enough with ended | enough
    · exact .inl (ended_look ended)
    · refine (looks h).ended_or_waiting.imp_right fun fewer => ?_
      change h.look.waiting ≤ count
      omega

/-- What a connection hands on is what its frames say, in their order and in the name of the member that
the first of them names, which stays the same whatever arrives. Who looks often enough misses nothing. -/
theorem speaks_for_peer (moves : List Move) :
    let h := Hearing.after moves
    let frames := (Frame.cut (arrived moves)).frames
    h.frames <+: frames ∧ h.messages = conversation h.frames ∧
      h.connection.peer = h.frames.head?.bind handshake? ∧
      (∀ m ∈ h.messages, m.sender = h.connection.peer) ∧
      ∀ count, frames.length ≤ count →
        (Hearing.after (moves ++ List.replicate count .look)).messages = conversation frames := by
  intro h frames
  have faithful := faithful_after moves
  have stream : frames = h.frames ++ (Frame.cut h.connection.buffer).frames := by
    simpa using faithful.follows []
  refine ⟨⟨_, stream.symm⟩, faithful.told, faithful.named, ?_, ?_⟩
  · intro m member
    rw [faithful.told] at member
    rw [faithful.named]
    exact sender_of_conversation member
  · intro count enough
    have waiting : h.waiting ≤ count := by
      rw [stream, List.length_append] at enough
      exact Nat.le_of_add_left_le enough
    have later := faithful_after (moves ++ List.replicate count .look)
    have quiet : arrived (moves ++ List.replicate count .look) = arrived moves := by
      simp [arrived, Move.chunk]
    have rest := later.follows []
    rw [quiet, List.append_nil, List.append_nil] at rest
    rcases ended_or_all_taken (.inr waiting) with ended | all
    · rw [← Hearing.after_append] at ended
      have silent := later.silent ended []
      rw [List.append_nil, ← rest] at silent
      exact silent.symm
    · rw [← Hearing.after_append] at all
      rw [all, List.append_nil] at rest
      rw [later.told, ← rest]

/-- A frame that is no message is passed over, and a message that names somebody else as its sender
comes from the peer all the same. -/
example :
    let frame (data : List UInt8) := Wire.bigEndian 4 data.length ++ data
    let greeting : Message := .of (.handshake (.peer 1))
    let forged : Message := { sender := some (.peer 2), payload := .heartbeatResponse 7 }
    (Hearing.after [.bytes (frame (Codec.written .current greeting)), .look, .bytes (frame [9]), .look,
      .bytes (frame (Codec.written .current forged)), .look]).messages =
        [{ forged with sender := some (.peer 1) }] := by
  decide +kernel

end Cohort.Inbound
