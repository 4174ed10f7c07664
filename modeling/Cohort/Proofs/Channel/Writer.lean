import Mathlib.Data.List.Forall2
import Mathlib.Data.List.Induction
import Cohort.Channel.Inbound
import Cohort.Channel.Writer
import Cohort.Proofs.Message.Codec
import Cohort.Proofs.Message.Frame

/-! What an opened connection writes, and what it answers. Whatever is queued on it and whichever attempts
fail, its frames are a handshake and the first of the messages, and the answers are true: the messages that
are answered with success are those in the frames. -/

namespace Cohort

namespace Writer

variable {τ : Type}

/-- How an attempt to connect or to write goes. One that fails may leave a part of a frame on the wire. -/
inductive Luck where
  | succeeds
  | fails (sent : Nat) (fault : ServiceError)
  deriving DecidableEq, Repr

/-- A connection, the bytes that it has written and the results that it gave. -/
structure Line (τ : Type) where
  writer : Writer τ
  wire : List UInt8 := []
  results : List (τ × Except ServiceError Unit) := []

/-- What happens to a connection. -/
inductive Move (τ : Type) where
  | submit (item : Outgoing τ)
  | act (luck : Luck)
  deriving DecidableEq, Repr

namespace Line

/-- An item is queued, or refused because the connection is closed. -/
def submit (item : Outgoing τ) (line : Line τ) : Line τ :=
  if line.writer.stage = .closed then
    { line with results := line.results ++ [line.writer.refusal item] }
  else { line with writer := line.writer.enqueue item }

def conclude (line : Line τ) (next : Writer τ × Option τ) (outcome : Except ServiceError Unit) : Line τ :=
  { line with writer := next.1, results := line.results ++ next.2.toList.map (·, outcome) }

/-- What the connection wants is done, with some luck. -/
def act (luck : Luck) (line : Line τ) : Line τ :=
  match line.writer.want with
  | .nothing => line
  | .connect =>
    match luck with
    | .succeeds => { line with writer := line.writer.opened }
    | .fails _ fault => line.conclude line.writer.failed (.error fault)
  | .write data _ =>
    match Frame.encode data, luck with
    | .error fault, _ => line.conclude line.writer.failed (.error (.transport (.io fault)))
    | .ok bytes, .succeeds =>
      { line.conclude line.writer.wrote (.ok ()) with wire := line.wire ++ bytes }
    | .ok bytes, .fails sent fault =>
      { line.conclude line.writer.failed (.error fault) with
        wire := line.wire ++ bytes.take (min sent (bytes.length - 1)) }
  | .fail fault => line.conclude line.writer.failed (.error fault)
  | .close ticket =>
    { line with
      writer := line.writer.finished
      results := line.results ++ (ticket, .ok ()) :: (line.writer.queue.drop 1).map line.writer.refusal }

def step (line : Line τ) : Move τ → Line τ
  | .submit item => line.submit item
  | .act luck => line.act luck

def run (line : Line τ) (moves : List (Move τ)) : Line τ := moves.foldl step line

end Line

/-- The items that some moves bring. -/
def Move.item? : Move τ → Option (Outgoing τ)
  | .submit item => some item
  | .act _ => none

def signed (w : Writer τ) (m : Message) : Message := { m with sender := some w.self }

/-- What a connection encodes for its frames: the handshake, and messages in its own name. -/
def script (w : Writer τ) (messages : List Message) : List (Except CodecFault (List UInt8)) :=
  (w.greeting :: messages.map w.signed).map (Codec.encode w.version)

theorem script_append (w : Writer τ) (messages : List Message) (m : Message) :
    w.script (messages ++ [m]) = w.script messages ++ [Codec.encode w.version (w.signed m)] := by
  simp [script]

/-! ### What one act does -/

/-- A connection goes on with the first item of its queue. -/
inductive Acts (line : Line τ) : Line τ → Prop where
  | idles (idle : line.writer.stage = .closed ∨ line.writer.queue = []) : Acts line line
  | opens {m : Message} {ticket : τ} {rest : List (Outgoing τ)}
      (queued : line.writer.queue = .message m ticket :: rest) (unopened : line.writer.stage = .unopened) :
      Acts line { line with writer := { line.writer with stage := .greeting } }
  | greets {m : Message} {ticket : τ} {rest : List (Outgoing τ)} {data bytes : List UInt8}
      (queued : line.writer.queue = .message m ticket :: rest) (opened : line.writer.stage = .greeting)
      (encoded : Codec.encode line.writer.version line.writer.greeting = .ok data)
      (framed : Frame.encode data = .ok bytes) :
      Acts line { line with
        writer := { line.writer with stage := .ready }
        wire := line.wire ++ bytes }
  | writes {m : Message} {ticket : τ} {rest : List (Outgoing τ)} {data bytes : List UInt8}
      (queued : line.writer.queue = .message m ticket :: rest) (ready : line.writer.stage = .ready)
      (encoded : Codec.encode line.writer.version (line.writer.signed m) = .ok data)
      (framed : Frame.encode data = .ok bytes) :
      Acts line {
        writer := { line.writer with queue := rest }
        wire := line.wire ++ bytes
        results := line.results ++ [(ticket, .ok ())] }
  | fails {m : Message} {ticket : τ} {rest : List (Outgoing τ)} {part : List UInt8} (fault : ServiceError)
      (queued : line.writer.queue = .message m ticket :: rest) (going : line.writer.stage ≠ .closed)
      (begun : (Frame.cut part).frames = []) (silent : line.writer.stage = .broken → part = []) :
      Acts line {
        writer := { line.writer with stage := .broken, queue := rest }
        wire := line.wire ++ part
        results := line.results ++ [(ticket, .error fault)] }
  | closes {ticket : τ} {rest : List (Outgoing τ)}
      (queued : line.writer.queue = .close ticket :: rest) (going : line.writer.stage ≠ .closed) :
      Acts line { line with
        writer := { line.writer with stage := .closed, queue := [] }
        results := line.results ++ (ticket, .ok ()) :: rest.map line.writer.refusal }

section
variable {line : Line τ} {m : Message} {ticket : τ} {rest : List (Outgoing τ)}

theorem conclude_failed (queued : line.writer.queue = .message m ticket :: rest)
    (outcome : Except ServiceError Unit) :
    line.conclude line.writer.failed outcome = { line with
      writer := { line.writer with stage := .broken, queue := rest }
      results := line.results ++ [(ticket, outcome)] } := by
  simp [Line.conclude, failed, settle, queued]

theorem acts_failed (queued : line.writer.queue = .message m ticket :: rest)
    (going : line.writer.stage ≠ .closed) (fault : ServiceError) :
    Acts line (line.conclude line.writer.failed (.error fault)) := by
  rw [conclude_failed queued]
  simpa using Acts.fails fault queued going Frame.frames_nil fun _ => rfl

/-- To write something fails if it cannot be encoded, is too long for a frame or has no luck. -/
theorem acts_writeOf (luck : Luck) {message : Message} {counted : Bool}
    (queued : line.writer.queue = .message m ticket :: rest)
    (wants : line.writer.want = line.writer.writeOf message counted)
    (going : line.writer.stage ≠ .closed) (able : line.writer.stage ≠ .broken)
    (written : ∀ data bytes, Codec.encode line.writer.version message = .ok data →
      Frame.encode data = .ok bytes →
      Acts line { line.conclude line.writer.wrote (.ok ()) with wire := line.wire ++ bytes }) :
    Acts line (line.act luck) := by
  unfold Line.act
  rw [wants, writeOf]
  cases encoded : Codec.encode line.writer.version message with
  | error fault => exact acts_failed queued going _
  | ok data =>
    dsimp only
    cases framed : Frame.encode data with
    | error fault => exact acts_failed queued going _
    | ok bytes =>
      cases luck with
      | succeeds => exact written data bytes encoded framed
      | fails sent fault =>
        have some := Frame.length_pos_of_encode framed
        have part : min sent (bytes.length - 1) < bytes.length := by omega
        have begun := Frame.frames_begun framed part
        dsimp only
        rw [conclude_failed queued]
        exact .fails fault queued going begun fun broken => absurd broken able

theorem want_of_idle (idle : line.writer.stage = .closed ∨ line.writer.queue = []) :
    line.writer.want = .nothing := by
  rcases idle with closed | empty
  · simp [want, closed]
  · cases stage : line.writer.stage <;> simp [want, stage, empty]

theorem acts (luck : Luck) (line : Line τ) : Acts line (line.act luck) := by
  by_cases idle : line.writer.stage = .closed ∨ line.writer.queue = []
  · unfold Line.act
    rw [want_of_idle idle]
    exact .idles idle
  · obtain ⟨going, nonempty⟩ := not_or.mp idle
    obtain ⟨item, rest, queued⟩ := List.exists_cons_of_ne_nil nonempty
    cases item with
    | close ticket =>
      have wants : line.writer.want = .close ticket := by
        cases stage : line.writer.stage <;> simp_all [want]
      simpa [Line.act, wants, finished, queued] using Acts.closes queued going
    | message m ticket =>
      cases stage : line.writer.stage with
      | unopened =>
        have wants : line.writer.want = .connect := by simp [want, stage, queued]
        unfold Line.act
        rw [wants]
        cases luck with
        | succeeds => exact .opens queued stage
        | fails sent fault => exact acts_failed queued going fault
      | greeting =>
        have wants : line.writer.want = line.writer.writeOf line.writer.greeting false := by
          simp [want, stage, queued]
        apply acts_writeOf luck queued wants going (by simp [stage])
        intro data bytes encoded framed
        simpa [Line.conclude, wrote, stage] using Acts.greets queued stage encoded framed
      | ready =>
        have wants : line.writer.want = line.writer.writeOf (line.writer.signed m) true := by
          simp [want, stage, queued, signed]
        apply acts_writeOf luck queued wants going (by simp [stage])
        intro data bytes encoded framed
        simpa [Line.conclude, wrote, settle, stage, queued] using Acts.writes queued stage encoded framed
      | broken =>
        have wants : line.writer.want = .fail line.writer.lost := by simp [want, stage, queued]
        unfold Line.act
        rw [wants]
        exact acts_failed queued going _
      | closed => contradiction

end

/-! ### What a connection keeps -/

/-- The frames on the wire are those of the handshake and some messages, or there are none. -/
def Framed (w : Writer τ) (wire : List UInt8) (messages : List Message) : Prop :=
  messages = [] ∧ (Frame.cut wire).frames = [] ∨
    (Frame.cut wire).frames.map Except.ok = w.script messages

/-- What is on the wire at each stage. On a connection that is ready the next frame can follow. -/
def Stands (line : Line τ) (messages : List Message) : Prop :=
  match line.writer.stage with
  | .unopened | .greeting => messages = [] ∧ line.wire = []
  | .ready => ∀ more, (Frame.cut (line.wire ++ more)).frames.map Except.ok =
      line.writer.script messages ++ (Frame.cut more).frames.map Except.ok
  | .broken | .closed => line.writer.Framed line.wire messages

/-- An item is answered without having been written: a message with a failure, a request to close as
done. -/
def Answered : Outgoing τ → τ × Except ServiceError Unit → Prop
  | .message _ ticket, result => ∃ fault, result = (ticket, .error fault)
  | .close ticket, result => result = (ticket, .ok ())

/-- What was submitted is the messages that were sent, items that were answered without that, and the
queue. -/
structure Honest (items : List (Outgoing τ)) (line : Line τ) (sent : List (Message × τ))
    (unsent : List (Outgoing τ)) : Prop where
  items : items = sent.map (fun p => .message p.1 p.2) ++ unsent ++ line.writer.queue
  results : ∃ answers, line.results = sent.map (fun p => (p.2, .ok ())) ++ answers ∧
    List.Forall₂ Answered unsent answers
  stands : Stands line (sent.map Prod.fst)
  stopped : unsent ≠ [] → line.writer.stage = .broken ∨ line.writer.stage = .closed
  drained : line.writer.stage = .closed → line.writer.queue = []

theorem Stands.framed {line : Line τ} {messages : List Message} (stands : Stands line messages) :
    line.writer.Framed line.wire messages := by
  unfold Stands at stands
  cases stage : line.writer.stage with
  | unopened | greeting =>
    rw [stage] at stands
    obtain ⟨none, bare⟩ := stands
    left
    rw [bare]
    exact ⟨none, Frame.frames_nil⟩
  | ready =>
    rw [stage] at stands
    right
    simpa [Frame.frames_nil] using stands []
  | broken | closed =>
    rw [stage] at stands
    exact stands

/-- A part of a frame at the end of the wire adds no frame. -/
theorem Stands.framed_append {line : Line τ} {messages : List Message} (stands : Stands line messages)
    {part : List UInt8} (begun : (Frame.cut part).frames = [])
    (silent : line.writer.stage = .broken → part = []) (going : line.writer.stage ≠ .closed) :
    line.writer.Framed (line.wire ++ part) messages := by
  unfold Stands at stands
  cases stage : line.writer.stage with
  | unopened | greeting =>
    rw [stage] at stands
    obtain ⟨none, bare⟩ := stands
    left
    rw [bare]
    exact ⟨none, begun⟩
  | ready =>
    rw [stage] at stands
    right
    simpa [begun] using stands part
  | broken =>
    rw [stage] at stands
    rw [silent stage, List.append_nil]
    exact stands
  | closed => contradiction

theorem answered_refusal (w : Writer τ) (item : Outgoing τ) : Answered item (w.refusal item) := by
  cases item with
  | message m ticket => exact ⟨w.lost, rfl⟩
  | close ticket => rfl

theorem answered_refusals (w : Writer τ) (items : List (Outgoing τ)) :
    List.Forall₂ Answered items (items.map w.refusal) := by
  induction items with
  | nil => exact .nil
  | cons item rest ih => exact .cons (answered_refusal w item) ih

section
variable {items : List (Outgoing τ)} {line line' : Line τ} {sent : List (Message × τ)}
  {unsent : List (Outgoing τ)}

theorem Honest.submit (honest : Honest items line sent unsent) (item : Outgoing τ) :
    ∃ unsent', Honest (items ++ [item]) (line.submit item) sent unsent' := by
  obtain ⟨answers, results, answered⟩ := honest.results
  unfold Line.submit
  split
  · rename_i closed
    -- Nothing waits any more, so to refuse the item at once keeps the order.
    have empty := honest.drained closed
    refine ⟨unsent ++ [item], ?_, ⟨answers ++ [line.writer.refusal item], ?_, ?_⟩, honest.stands, ?_,
      honest.drained⟩
    · rw [honest.items, empty]
      simp
    · rw [results, List.append_assoc]
    · exact List.rel_append answered (.cons (answered_refusal _ item) .nil)
    · exact fun _ => .inr closed
  · rename_i going
    refine ⟨unsent, ?_, ⟨answers, results, answered⟩, honest.stands, honest.stopped, ?_⟩
    · rw [honest.items, enqueue, List.append_assoc _ line.writer.queue]
    · exact fun closed => absurd closed going

theorem Honest.act (honest : Honest items line sent unsent) (acts : Acts line line') :
    ∃ sent' unsent', Honest items line' sent' unsent' := by
  obtain ⟨answers, results, answered⟩ := honest.results
  have stands := honest.stands
  have begins {item : Outgoing τ} {rest : List (Outgoing τ)} (queued : line.writer.queue = item :: rest) :
      items = sent.map (fun p => .message p.1 p.2) ++ (unsent ++ [item]) ++ rest := by
    rw [honest.items, queued]
    simp
  cases acts with
  | idles idle => exact ⟨sent, unsent, honest⟩
  | opens queued unopened =>
    unfold Stands at stands
    rw [unopened] at stands
    refine ⟨sent, unsent, honest.items, honest.results, stands, ?_, nofun⟩
    intro more
    have := honest.stopped more
    simp [unopened] at this
  | @greets m ticket rest data bytes queued opened encoded framed =>
    unfold Stands at stands
    rw [opened] at stands
    obtain ⟨none, bare⟩ := stands
    refine ⟨sent, unsent, honest.items, honest.results, ?_, ?_, nofun⟩
    · intro more
      rw [none, bare, List.nil_append, Frame.frames_written framed, List.map_cons, ← encoded]
      rfl
    · intro more
      have := honest.stopped more
      simp [opened] at this
  | @writes m ticket rest data bytes queued ready encoded framed =>
    have all : unsent = [] := by
      by_contra more
      have := honest.stopped more
      simp [ready] at this
    subst all
    obtain rfl : answers = [] := by simpa using answered
    unfold Stands at stands
    rw [ready] at stands
    refine ⟨sent ++ [(m, ticket)], [], ?_, ⟨[], ?_, .nil⟩, ?_, nofun, ?_⟩
    · rw [begins queued]
      simp
    · rw [results]
      simp
    · unfold Stands
      rw [ready]
      intro more
      have grown := script_append line.writer (sent.map Prod.fst) m
      rw [List.append_assoc, stands, Frame.frames_written framed, List.map_cons, ← encoded,
        List.append_cons, ← grown, List.map_append]
      rfl
    · exact fun closed => nomatch ready.symm.trans closed
  | @fails m ticket rest part fault queued going begun silent =>
    refine ⟨sent, _, begins queued, ⟨answers ++ [(ticket, .error fault)], ?_, ?_⟩, ?_,
      fun _ => .inl rfl, nofun⟩
    · rw [results, List.append_assoc]
    · exact List.rel_append answered (.cons ⟨fault, rfl⟩ .nil)
    · exact stands.framed_append begun silent going
  | @closes ticket rest queued going =>
    have refusals := answered_refusals line.writer (.close ticket :: rest)
    refine ⟨sent, unsent ++ .close ticket :: rest, ?_, ⟨_, ?_, List.rel_append answered refusals⟩,
      stands.framed, fun _ => .inr rfl, fun _ => rfl⟩
    · rw [begins queued]
      simp
    · rw [results, List.append_assoc]
      rfl

/-- A connection that failed or was closed writes nothing. -/
theorem Acts.still (acts : Acts line line')
    (stopped : line.writer.stage = .broken ∨ line.writer.stage = .closed) :
    line'.wire = line.wire ∧ (line'.writer.stage = .broken ∨ line'.writer.stage = .closed) := by
  cases acts with
  | idles idle => exact ⟨rfl, stopped⟩
  | opens queued unopened => simp [unopened] at stopped
  | greets queued opened encoded framed => simp [opened] at stopped
  | writes queued ready encoded framed => simp [ready] at stopped
  | fails fault queued going begun silent =>
    rw [silent (stopped.resolve_right going), List.append_nil]
    exact ⟨rfl, .inl rfl⟩
  | closes queued going => exact ⟨rfl, .inr rfl⟩

theorem still_step (stopped : line.writer.stage = .broken ∨ line.writer.stage = .closed) (move : Move τ) :
    (line.step move).wire = line.wire ∧
      ((line.step move).writer.stage = .broken ∨ (line.step move).writer.stage = .closed) := by
  cases move with
  | submit item =>
    simp only [Line.step, Line.submit]
    split <;> exact ⟨rfl, stopped⟩
  | act luck => exact (acts luck line).still stopped

theorem still_run (stopped : line.writer.stage = .broken ∨ line.writer.stage = .closed)
    (moves : List (Move τ)) : (line.run moves).wire = line.wire := by
  induction moves generalizing line with
  | nil => rfl
  | cons move moves ih =>
    obtain ⟨same, still⟩ := still_step stopped move
    exact (ih still).trans same

theorem Acts.configured (acts : Acts line line') :
    line'.writer.self = line.writer.self ∧ line'.writer.version = line.writer.version := by
  cases acts <;> exact ⟨rfl, rfl⟩

theorem configured_step (line : Line τ) (move : Move τ) :
    (line.step move).writer.self = line.writer.self ∧
      (line.step move).writer.version = line.writer.version := by
  cases move with
  | submit item =>
    simp only [Line.step, Line.submit]
    split <;> exact ⟨rfl, rfl⟩
  | act luck => exact (acts luck line).configured

theorem configured_run (line : Line τ) (moves : List (Move τ)) :
    (line.run moves).writer.self = line.writer.self ∧
      (line.run moves).writer.version = line.writer.version := by
  induction moves generalizing line with
  | nil => exact ⟨rfl, rfl⟩
  | cons move moves ih =>
    obtain ⟨self, version⟩ := configured_step line move
    obtain ⟨self', version'⟩ := ih (line.step move)
    exact ⟨self'.trans self, version'.trans version⟩

theorem honest_run (address : Net.Endpoint) (self : Member) (version : Version) (moves : List (Move τ)) :
    ∃ sent unsent, Honest (moves.filterMap Move.item?)
      (Line.run { writer := { address, self, version } } moves) sent unsent := by
  induction moves using List.reverseRecOn with
  | nil => exact ⟨[], [], rfl, ⟨[], rfl, .nil⟩, ⟨rfl, rfl⟩, nofun, fun _ => rfl⟩
  | append_singleton moves move ih =>
    obtain ⟨sent, unsent, honest⟩ := ih
    rw [Line.run, List.foldl_append, List.filterMap_append]
    cases move with
    | submit item =>
      obtain ⟨unsent', honest'⟩ := honest.submit item
      exact ⟨sent, unsent', honest'⟩
    | act luck =>
      obtain ⟨sent', unsent', honest'⟩ := honest.act (acts luck _)
      refine ⟨sent', unsent', ?_⟩
      rw [show [Move.act luck].filterMap Move.item? = ([] : List (Outgoing τ)) from rfl, List.append_nil]
      exact honest'

/-! ### Getting done -/

/-- How many acts the queue takes: one for each item, and two more until the handshake is written. -/
def Line.due (line : Line τ) : Nat :=
  match line.writer.queue, line.writer.stage with
  | [], _ => 0
  | _ :: rest, .unopened => rest.length + 3
  | _ :: rest, .greeting => rest.length + 2
  | _ :: rest, _ => rest.length + 1

/-- An act takes one off what is due. -/
theorem Acts.due (acts : Acts line line') (drained : line.writer.stage = .closed → line.writer.queue = []) :
    line'.due ≤ line.due - 1 ∧ (line'.writer.stage = .closed → line'.writer.queue = []) := by
  cases acts with
  | idles idle =>
    have empty := idle.elim drained id
    simp [Line.due, empty]
  | opens queued unopened => simp [Line.due, queued, unopened]
  | greets queued opened encoded framed => simp [Line.due, queued, opened]
  | @writes m ticket rest data bytes queued ready encoded framed =>
    cases rest <;> simp [Line.due, queued, ready]
  | @fails m ticket rest part fault queued going begun silent =>
    cases rest <;> cases stage : line.writer.stage <;> simp_all [Line.due]
  | closes queued going => simp [Line.due]

theorem queue_of_acts {lucks : List Luck} (drained : line.writer.stage = .closed → line.writer.queue = [])
    (enough : line.due ≤ lucks.length) : (line.run (lucks.map .act)).writer.queue = [] := by
  induction lucks generalizing line with
  | nil =>
    cases queue : line.writer.queue with
    | nil => exact queue
    | cons item rest =>
      unfold Line.due at enough
      rw [queue] at enough
      cases stage : line.writer.stage <;> simp [stage] at enough
  | cons luck lucks ih =>
    obtain ⟨fewer, drained'⟩ := (acts luck line).due drained
    rw [List.length_cons] at enough
    exact ih drained' (by change (line.act luck).due ≤ _; omega)

theorem due_le (line : Line τ) : line.due ≤ line.writer.queue.length + 2 := by
  unfold Line.due
  split <;> simp_all

end

/-! ### The law of a connection -/

/-- The handshake of a connection names the member that it was configured with. -/
theorem handshake?_of_encode {version : Version} {self : Member} {data : List UInt8}
    (encoded : Codec.encode version (.of (.handshake self)) = .ok data) :
    Inbound.handshake? data = some (self.forVersion version) := by
  obtain ⟨fits, rfl⟩ := Codec.of_encode encoded
  have current : ¬ Version.current < version := by cases version <;> decide
  have numbered : MessageKind.ofNumber? (Message.of (.handshake self)).kind.number =
      some (Message.of (.handshake self)).kind := rfl
  rw [Inbound.handshake?, Codec.decode_written .current numbered fits, if_neg current]
  rfl

/-- What was submitted to a connection is the messages that it sent, in their order, then items that it
answered without sending anything, and its queue. The messages that it sent are those that were answered
with success, and its frames are theirs behind a handshake with its own name. After an item that was not
sent nothing more is written; and enough acts answer everything. -/
theorem writes_in_order (address : Net.Endpoint) (self : Member) (version : Version)
    (moves : List (Move τ)) :
    let line := Line.run { writer := { address, self, version } } moves
    let frames := (Frame.cut line.wire).frames
    ∃ (sent : List (Message × τ)) (unsent : List (Outgoing τ))
      (answers : List (τ × Except ServiceError Unit)),
      moves.filterMap Move.item? =
        sent.map (fun p => .message p.1 p.2) ++ unsent ++ line.writer.queue ∧
      line.results = sent.map (fun p => (p.2, .ok ())) ++ answers ∧ List.Forall₂ Answered unsent answers ∧
      (sent = [] ∧ frames = [] ∨ frames.map .ok = line.writer.script (sent.map Prod.fst)) ∧
      (line.writer.self = self ∧ line.writer.version = version ∧
        ∀ first ∈ frames.head?, Inbound.handshake? first = some (self.forVersion version)) ∧
      (unsent ≠ [] → ∀ more, (line.run more).wire = line.wire) ∧
      ∀ lucks : List Luck, line.writer.queue.length + 2 ≤ lucks.length →
        (line.run (lucks.map .act)).writer.queue = [] := by
  intro line frames
  obtain ⟨sent, unsent, honest⟩ := honest_run address self version moves
  obtain ⟨answers, results, answered⟩ := honest.results
  obtain ⟨named, schema⟩ := configured_run { writer := { address, self, version } } moves
  have framed := honest.stands.framed
  refine ⟨sent, unsent, answers, honest.items, results, answered, ?_, ⟨named, schema, ?_⟩, ?_, ?_⟩
  · refine framed.imp_left fun none => ⟨List.map_eq_nil_iff.mp none.1, none.2⟩
  · intro first member
    rcases framed with ⟨-, none⟩ | written
    · have empty : frames = [] := none
      rw [empty] at member
      contradiction
    · have heads : frames.head?.map Except.ok =
          some (Codec.encode line.writer.version line.writer.greeting) := by
        rw [← List.head?_map, written]
        rfl
      rw [member, Option.map_some, greeting, named, schema] at heads
      exact handshake?_of_encode (Option.some.inj heads).symm
  · intro more
    exact still_run (honest.stopped more)
  · intro lucks enough
    exact queue_of_acts honest.drained (Nat.le_trans (due_le _) enough)

end Writer

end Cohort
