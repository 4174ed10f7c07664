import Cohort.Proofs.Channel.Writer

/-! Messages that share a connection. While nothing fails on the wire, what becomes of a message depends
on what was queued before it and on nothing else: the first message that makes no frame is refused as it
should be, but it takes the connection with it, so all that wait behind it are lost. -/

namespace Cohort

namespace Writer

variable {τ : Type}

/-- The message makes a frame: it can be encoded, and the frame is not too long. -/
def Framable (version : Version) (message : Message) : Prop :=
  ∃ data, Codec.encode version message = .ok data ∧ data.length ≤ Frame.maxLength

/-- Why a message makes no frame, if it makes none. -/
def fault? (version : Version) (message : Message) : Option ServiceError :=
  match Codec.encode version message with
  | .error fault => some (.codec fault)
  | .ok data =>
    match Frame.encode data with
    | .error fault => some (.transport (.io fault))
    | .ok _ => none

theorem fault?_eq_none_iff {version : Version} {message : Message} :
    fault? version message = none ↔ Framable version message := by
  cases encoded : Codec.encode version message with
  | error fault => simp [fault?, Framable, encoded]
  | ok data =>
    by_cases long : data.length > Frame.maxLength
    · simp [fault?, Framable, encoded, Frame.encode, long, Nat.not_le.mpr long]
    · simp [fault?, Framable, encoded, Frame.encode, long, Nat.not_lt.mp long]

/-! ### What becomes of a queue -/

/-- What goes wrong with the first message of a queue, if something does although nothing fails on the
wire. -/
def trouble? (w : Writer τ) (stage : WriterStage) (m : Message) : Option ServiceError :=
  match stage with
  | .unopened | .greeting => (fault? w.version w.greeting).or (fault? w.version (w.signed m))
  | .ready => fault? w.version (w.signed m)
  | .broken | .closed => some w.lost

/-- The answers to the messages of a queue, if nothing fails on the wire. -/
def outcomes (w : Writer τ) (stage : WriterStage) :
    List (Message × τ) → List (τ × Except ServiceError Unit)
  | [] => []
  | (m, ticket) :: rest =>
    match w.trouble? stage m with
    | none => (ticket, .ok ()) :: w.outcomes .ready rest
    | some fault => (ticket, .error fault) :: w.outcomes .broken rest

/-- Nothing that came before keeps the first message of a queue from being written. -/
def Clear (w : Writer τ) : WriterStage → Prop
  | .unopened | .greeting => Framable w.version w.greeting
  | .ready => True
  | .broken | .closed => False

theorem trouble?_eq_none_iff {w : Writer τ} {stage : WriterStage} {m : Message} :
    w.trouble? stage m = none ↔ w.Clear stage ∧ Framable w.version (w.signed m) := by
  cases stage with
  | unopened | greeting =>
    rw [trouble?, Option.or_eq_none_iff, fault?_eq_none_iff, fault?_eq_none_iff, Clear]
  | ready => rw [trouble?, fault?_eq_none_iff, Clear, true_and]
  | broken | closed => simp [trouble?, Clear]

/-- A message is answered with success exactly if it and all before it make frames. -/
theorem outcomes_ok_iff (w : Writer τ) (stage : WriterStage) (before after : List (Message × τ))
    (m : Message) (ticket : τ) :
    (w.outcomes stage (before ++ (m, ticket) :: after))[before.length]? = some (ticket, .ok ()) ↔
      w.Clear stage ∧ ∀ p ∈ before ++ [(m, ticket)], Framable w.version (w.signed p.1) := by
  induction before generalizing stage with
  | nil =>
    rw [List.nil_append, List.nil_append, List.forall_mem_singleton, ← trouble?_eq_none_iff, outcomes]
    cases w.trouble? stage m <;> simp
  | cons p before ih =>
    obtain ⟨first, own⟩ := p
    rw [List.cons_append, List.cons_append, List.forall_mem_cons, ← and_assoc, ← trouble?_eq_none_iff,
      outcomes]
    cases w.trouble? stage first with
    | none => simpa [Clear] using ih .ready
    | some fault => simpa [Clear] using ih .broken

/-! ### Runs in which nothing fails -/

def item (p : Message × τ) : Outgoing τ := .message p.1 p.2

/-- A message is queued, or the connection goes on with luck. -/
def smooth : Option (Message × τ) → Move τ
  | some p => .submit (item p)
  | none => .act .succeeds

/-- The connection at some stage and with some messages queued. -/
def holding (w : Writer τ) (stage : WriterStage) (queued : List (Message × τ)) : Writer τ :=
  { w with stage, queue := queued.map item }

section
variable {line : Line τ} {message : Message} {counted : Bool}

theorem act_of_fault (wants : line.writer.want = line.writer.writeOf message counted)
    {fault : ServiceError} (faulty : fault? line.writer.version message = some fault) :
    line.act .succeeds = line.conclude line.writer.failed (.error fault) := by
  rw [Line.act, wants, writeOf]
  rw [fault?] at faulty
  cases encoded : Codec.encode line.writer.version message with
  | error own =>
    rw [encoded] at faulty
    cases faulty
    rfl
  | ok data =>
    rw [encoded] at faulty
    dsimp only at faulty ⊢
    cases framed : Frame.encode data with
    | error own =>
      rw [framed] at faulty
      cases faulty
      rfl
    | ok bytes =>
      rw [framed] at faulty
      cases faulty

theorem act_of_framable (wants : line.writer.want = line.writer.writeOf message counted)
    (faultless : fault? line.writer.version message = none) :
    ∃ wire, line.act .succeeds = { line.conclude line.writer.wrote (.ok ()) with wire := wire } := by
  obtain ⟨data, encoded, short⟩ := fault?_eq_none_iff.mp faultless
  rw [Line.act, wants, writeOf, encoded]
  simp only [Frame.encode, if_neg (Nat.not_lt.mpr short)]
  exact ⟨_, rfl⟩

end

/-- What a connection has answered, and will answer if nothing fails on the wire and `more` is queued, is
`total more`. -/
def Promises (w : Writer τ) (line : Line τ)
    (total : List (Message × τ) → List (τ × Except ServiceError Unit)) : Prop :=
  ∃ stage queued, stage ≠ .closed ∧ line.writer = w.holding stage queued ∧
    ∀ more, line.results ++ w.outcomes stage (queued ++ more) = total more

section
variable {w : Writer τ} {line : Line τ} {stage : WriterStage}
variable {m : Message} {ticket : τ} {rest : List (Message × τ)}
variable {total : List (Message × τ) → List (τ × Except ServiceError Unit)}

theorem promises_failed {fault : ServiceError}
    (holds : line.writer = w.holding stage ((m, ticket) :: rest))
    (promised : ∀ more, line.results ++ w.outcomes stage ((m, ticket) :: rest ++ more) = total more)
    (trouble : w.trouble? stage m = some fault) :
    w.Promises (line.conclude line.writer.failed (.error fault)) total := by
  refine ⟨.broken, rest, by decide, by rw [holds]; rfl, fun more => ?_⟩
  rw [← promised more, List.cons_append, outcomes, trouble, holds]
  exact List.append_assoc _ [(ticket, Except.error fault)] _

theorem Promises.act (promises : w.Promises line total) : w.Promises (line.act .succeeds) total := by
  obtain ⟨stage, queued, going, holds, promised⟩ := promises
  cases queued with
  | nil =>
    have idles : line.act .succeeds = line := by
      rw [Line.act, want_of_idle (.inr (by rw [holds]; rfl))]
    rw [idles]
    exact ⟨stage, [], going, holds, promised⟩
  | cons p rest =>
    obtain ⟨m, ticket⟩ := p
    cases stage with
    | unopened =>
      have opens : line.act .succeeds = { line with writer := line.writer.opened } := by
        rw [Line.act, holds]
        rfl
      rw [opens]
      refine ⟨.greeting, (m, ticket) :: rest, by decide, by rw [holds]; rfl, fun more => ?_⟩
      rw [← promised more, List.cons_append, outcomes, outcomes, trouble?, trouble?]
    | greeting =>
      have wants : line.writer.want = line.writer.writeOf w.greeting false := by
        rw [holds]
        rfl
      cases faulty : fault? w.version w.greeting with
      | some fault =>
        rw [act_of_fault wants (by rw [holds]; exact faulty)]
        exact promises_failed holds promised (by rw [trouble?, faulty, Option.some_or])
      | none =>
        obtain ⟨wire, acted⟩ := act_of_framable wants (by rw [holds]; exact faulty)
        rw [acted]
        refine ⟨.ready, (m, ticket) :: rest, by decide, by rw [holds]; rfl, fun more => ?_⟩
        rw [← promised more, List.cons_append, outcomes, outcomes, trouble?, trouble?, faulty,
          Option.none_or, holds]
        exact congrArg (· ++ _) (List.append_nil _)
    | ready =>
      have wants : line.writer.want = line.writer.writeOf (w.signed m) true := by
        rw [holds]
        rfl
      cases faulty : fault? w.version (w.signed m) with
      | some fault =>
        rw [act_of_fault wants (by rw [holds]; exact faulty)]
        exact promises_failed holds promised faulty
      | none =>
        obtain ⟨wire, acted⟩ := act_of_framable wants (by rw [holds]; exact faulty)
        rw [acted]
        refine ⟨.ready, rest, by decide, by rw [holds]; rfl, fun more => ?_⟩
        rw [← promised more, List.cons_append, outcomes, trouble?, faulty, holds]
        exact List.append_assoc _ [(ticket, Except.ok ())] _
    | broken =>
      have fails : line.act .succeeds = line.conclude line.writer.failed (.error w.lost) := by
        rw [Line.act, holds]
        rfl
      rw [fails]
      exact promises_failed holds promised rfl
    | closed => contradiction

theorem Promises.submit (promises : w.Promises line total) (p : Message × τ) :
    w.Promises (line.submit (item p)) fun more => total (p :: more) := by
  obtain ⟨stage, queued, going, holds, promised⟩ := promises
  rw [Line.submit, if_neg (by rw [holds]; exact going)]
  refine ⟨stage, queued ++ [p], going, ?_, fun more => ?_⟩
  · rw [holds, holding, holding, enqueue, List.map_append]
    rfl
  · dsimp only
    rw [← promised, List.append_assoc]
    rfl

theorem Promises.run (promises : w.Promises line total) (events : List (Option (Message × τ))) :
    w.Promises (line.run (events.map smooth)) fun more => total (events.filterMap id ++ more) := by
  induction events generalizing line total with
  | nil => exact promises
  | cons event events ih =>
    cases event with
    | none => exact ih promises.act
    | some p => exact ih (promises.submit p)

/-- The connection goes on with luck until all that is queued is answered. -/
def Line.finish (line : Line τ) : Line τ :=
  line.run ((List.replicate (line.writer.queue.length + 2) .succeeds).map .act)

theorem finish_eq_run (line : Line τ) :
    ∃ acts, line.finish = line.run ((List.replicate acts none).map smooth) := by
  refine ⟨line.writer.queue.length + 2, ?_⟩
  rw [Line.finish, List.map_replicate, List.map_replicate]
  rfl

theorem Promises.finish (promises : w.Promises line total) :
    w.Promises line.finish total ∧ line.finish.writer.queue = [] := by
  constructor
  · obtain ⟨acts, same⟩ := finish_eq_run line
    rw [same]
    simpa [List.filterMap_replicate] using promises.run (List.replicate acts none)
  · obtain ⟨stage, queued, going, holds, -⟩ := promises
    apply queue_of_acts
    · intro closed
      rw [holds] at closed
      exact absurd closed going
    · rw [List.length_replicate]
      exact due_le line

end

theorem items_smooth (events : List (Option (Message × τ))) :
    (events.map smooth).filterMap Move.item? = (events.filterMap id).map item := by
  induction events with
  | nil => rfl
  | cons event events ih =>
    cases event with
    | none => exact ih
    | some p => exact congrArg (item p :: ·) ih

/-- Every message is answered, as the outcomes say. -/
theorem results_finish (address : Net.Endpoint) (self : Member) (version : Version)
    (events : List (Option (Message × τ))) :
    let line := (Line.run { writer := { address, self, version } } (events.map smooth)).finish
    line.writer.queue = [] ∧
      line.results = ({ address, self, version } : Writer τ).outcomes .unopened (events.filterMap id) := by
  intro line
  let w : Writer τ := { address, self, version }
  have started : w.Promises { writer := w } (w.outcomes .unopened) :=
    ⟨.unopened, [], by decide, rfl, fun _ => rfl⟩
  obtain ⟨⟨stage, queued, -, holds, promised⟩, empty⟩ := (started.run events).finish
  refine ⟨empty, ?_⟩
  have none : queued = [] := by
    rw [holds] at empty
    exact List.map_eq_nil_iff.mp empty
  have answers := promised []
  simp only [none, List.append_nil, outcomes] at answers
  exact answers

/-- Messages that were not written are answered with failures. -/
theorem errors_of_answered {unsent : List (Outgoing τ)} {answers : List (τ × Except ServiceError Unit)}
    (answered : List.Forall₂ Answered unsent answers) (messages : ∀ x ∈ unsent, ∃ p, x = item p) :
    ∀ result ∈ answers, ∃ fault, result.2 = .error fault := by
  induction answered with
  | nil => exact fun _ member => nomatch member
  | @cons x result unsent answers first _ ih =>
    rw [List.forall_mem_cons] at messages ⊢
    obtain ⟨⟨p, rfl⟩, messages⟩ := messages
    obtain ⟨fault, rfl⟩ := first
    exact ⟨⟨fault, rfl⟩, ih messages⟩

/-- A message that is acknowledged is in its frame. -/
theorem frame_of_ok {messages : List (Message × τ)} {line : Line τ} {sent : List (Message × τ)}
    {unsent : List (Outgoing τ)} (honest : Honest (messages.map item) line sent unsent) {i : Nat}
    {p : Message × τ} (there : messages[i]? = some p) (ok : line.results[i]? = some (p.2, .ok ())) :
    ∃ data, (Frame.cut line.wire).frames[i + 1]? = some data ∧
      Codec.encode line.writer.version (line.writer.signed p.1) = .ok data := by
  obtain ⟨answers, results, answered⟩ := honest.results
  have inside : i < sent.length := by
    by_contra beyond
    rw [results, List.getElem?_append_right (by rw [List.length_map]; exact Nat.not_lt.mp beyond)] at ok
    have messages : ∀ x ∈ unsent, ∃ p, x = item p := by
      intro x member
      have within : x ∈ messages.map item := by
        rw [honest.items]
        exact List.mem_append_left _ (List.mem_append_right _ member)
      obtain ⟨p, -, same⟩ := List.mem_map.mp within
      exact ⟨p, same.symm⟩
    obtain ⟨fault, failed⟩ := errors_of_answered answered messages _ (List.mem_of_getElem? ok)
    cases failed
  have same : sent[i]? = some p := by
    have items := congrArg (·[i]?) honest.items
    simp only [List.append_assoc, List.getElem?_map, there, Option.map_some] at items
    rw [List.getElem?_append_left (by rw [List.length_map]; exact inside), List.getElem?_map,
      List.getElem?_eq_getElem inside] at items
    have fields := Outgoing.message.inj (Option.some.inj items)
    rw [List.getElem?_eq_getElem inside, Prod.ext fields.1.symm fields.2.symm]
  rcases honest.stands.framed with ⟨none, -⟩ | script
  · rw [List.map_eq_nil_iff.mp none] at inside
    cases inside
  · have frame := congrArg (·[i + 1]?) script
    simp only [Writer.script, List.map_cons, List.getElem?_cons_succ, List.getElem?_map, same,
      Option.map_some] at frame
    obtain ⟨data, there, encoded⟩ := Option.map_eq_some_iff.mp frame
    exact ⟨data, there, encoded.symm⟩

/-! ### Delivery -/

/-- The message queued at a place is acknowledged, and it is in the frame at that place behind the
handshake. -/
def Line.Delivers (line : Line τ) (place : Nat) (p : Message × τ) : Prop :=
  line.results[place]? = some (p.2, .ok ()) ∧
    ∃ data, (Frame.cut line.wire).frames[place + 1]? = some data ∧
      Codec.encode line.writer.version (line.writer.signed p.1) = .ok data

/-- While nothing fails on the wire, every message of a connection gets the answer that the outcomes say.
A message is delivered exactly if the handshake, all messages queued before it and the message itself make
frames; what is queued behind it is nothing to it. -/
theorem delivered_iff (address : Net.Endpoint) (self : Member) (version : Version)
    (events : List (Option (Message × τ))) :
    let w : Writer τ := { address, self, version }
    let line := (Line.run { writer := w } (events.map smooth)).finish
    line.results = w.outcomes .unopened (events.filterMap id) ∧
      ∀ before p after, events.filterMap id = before ++ p :: after →
        (line.Delivers before.length p ↔
          Framable version w.greeting ∧ ∀ q ∈ before ++ [p], Framable version (w.signed q.1)) := by
  intro w line
  have results : line.results = w.outcomes .unopened (events.filterMap id) :=
    (results_finish address self version events).2
  refine ⟨results, ?_⟩
  intro before p after split
  have acknowledged := outcomes_ok_iff w .unopened before after p.1 p.2
  rw [← split, ← results] at acknowledged
  constructor
  · rintro ⟨ok, -⟩
    exact acknowledged.mp ok
  · intro frames
    have ok := acknowledged.mpr frames
    refine ⟨ok, ?_⟩
    obtain ⟨acts, run⟩ := finish_eq_run (Line.run { writer := w } (events.map smooth))
    have all : line = Line.run { writer := w } ((events ++ List.replicate acts none).map smooth) := by
      rw [List.map_append, Line.run, List.foldl_append]
      exact run
    obtain ⟨sent, unsent, honest⟩ :=
      honest_run address self version ((events ++ List.replicate acts none).map smooth)
    rw [items_smooth, List.filterMap_append, List.filterMap_replicate, ← all] at honest
    apply frame_of_ok honest _ ok
    rw [split]
    simp

/-- A connection of one process to another that is not open yet. -/
def toPeer : Writer Nat :=
  { address := { ip := .v4 0x7f000001, port := 3 }, self := Member.peer 1, version := .current }

def note : Message := .of (.application 7 [2])

theorem framable_greeting_toPeer : Framable .current toPeer.greeting := by
  have fits : Codec.Fits .current toPeer.greeting :=
    ⟨by decide +kernel, by decide +kernel, by decide +kernel⟩
  exact ⟨_, Codec.encode_of_fits fits, by decide +kernel⟩

theorem framable_note : Framable .current (toPeer.signed note) := by
  have fits : Codec.Fits .current (toPeer.signed note) :=
    ⟨by decide +kernel, by decide +kernel, by decide +kernel⟩
  exact ⟨_, Codec.encode_of_fits fits, by decide +kernel⟩

/-- Two messages are queued on the connection, one behind the other. -/
def pair (first second : Message) : Line Nat :=
  (Line.run { writer := toPeer } ([some (first, 0), some (second, 1)].map smooth)).finish

/-- Behind another note a note is delivered. -/
theorem note_delivered_behind_note : (pair note note).Delivers 1 (note, 1) := by
  have law := delivered_iff toPeer.address toPeer.self toPeer.version [some (note, 0), some (note, 1)]
  apply (law.2 [(note, 0)] (note, 1) [] rfl).mpr
  refine ⟨framable_greeting_toPeer, ?_⟩
  intro q member
  have same : q.1 = note := by
    rcases List.mem_cons.mp member with rfl | member
    · rfl
    · rw [List.mem_singleton.mp member]
  rw [same]
  exact framable_note

/-- A payload that is longer than a frame makes none. -/
theorem fault?_of_long {version : Version} {message : Message} (fits : Codec.Fits version message)
    (long : Frame.maxLength < (Codec.writePayload (message.forVersion version).payload).length) :
    fault? version message = some (.transport (.io .frameTooLong)) := by
  have longer : (Codec.written version message).length > Frame.maxLength := by
    apply Nat.lt_of_lt_of_le long
    simp only [Codec.written, List.length_append]
    omega
  simp only [fault?, Codec.encode_of_fits fits, Frame.encode, if_pos longer]

theorem length_writePayload_application (type : UInt16) (data : List UInt8) :
    (Codec.writePayload (.application type data)).length = 8 + data.length := by
  rw [Codec.writePayload, Wire.bytes, List.length_append, Wire.length, Wire.length_littleEndian]

theorem fault?_bulk {data : List UInt8} (long : Frame.maxLength < data.length)
    (fits : 8 + data.length < UInt32.size) :
    fault? .current (toPeer.signed (.of (.application 7 data))) =
      some (.transport (.io .frameTooLong)) := by
  have payload := length_writePayload_application 7 data
  apply fault?_of_long
  · apply Codec.Fits.of_current
    · change (Wire.option Wire.member (some (Member.peer 1))).length < UInt32.size
      decide +kernel
    · change (Wire.option Wire.member none).length < UInt32.size
      decide
    · exact payload.symm ▸ fits
  · rw [Message.forVersion_current]
    exact Nat.lt_of_lt_of_le long (payload.symm ▸ Nat.le_add_left _ _)

/-- What makes no frame is refused, and the message behind it is lost. -/
theorem results_pair {first : Message} {fault : ServiceError}
    (bad : fault? .current (toPeer.signed first) = some fault) (second : Message) :
    (pair first second).results = [(0, .error fault), (1, .error toPeer.lost)] := by
  have trouble : toPeer.trouble? .unopened first = some fault := by
    have greets : fault? toPeer.version toPeer.greeting = none :=
      fault?_eq_none_iff.mpr framable_greeting_toPeer
    rw [trouble?, greets, Option.none_or]
    exact bad
  calc
    (pair first second).results = toPeer.outcomes .unopened [(first, 0), (second, 1)] :=
      (results_finish toPeer.address toPeer.self toPeer.version _).2
    _ = _ := by
      rw [outcomes, trouble]
      rfl

theorem not_delivers_pair {first : Message} {fault : ServiceError}
    (bad : fault? .current (toPeer.signed first) = some fault) (second : Message) :
    ¬ (pair first second).Delivers 1 (second, 1) := by
  rintro ⟨ok, -⟩
  rw [results_pair bad] at ok
  cases ok

/-- More than a frame holds. -/
def bulk : Message := .of (.application 7 (List.replicate (Frame.maxLength + 1) 0))

theorem fault?_signed_bulk :
    fault? .current (toPeer.signed bulk) = some (.transport (.io .frameTooLong)) := by
  apply fault?_bulk
  · rw [List.length_replicate]
    exact Nat.lt_succ_self _
  · rw [List.length_replicate]
    decide

/-- Something too long for a frame is queued first and a note behind it. The note makes a frame, but it is
not delivered: the connection is lost with what was too long. -/
theorem bulk_loses_note :
    Framable toPeer.version (toPeer.signed note) ∧ ¬ (pair bulk note).Delivers 1 (note, 1) ∧
      (pair bulk note).results =
        [(0, .error (.transport (.io .frameTooLong))), (1, .error toPeer.lost)] :=
  ⟨framable_note, not_delivers_pair fault?_signed_bulk note, results_pair fault?_signed_bulk note⟩

end Writer

end Cohort
