import Cohort.Channel.Messenger
import Cohort.Proofs.Channel.Writer

/-! What a messenger writes on all the connections that it opens. A message goes on the connection that is
used for its address, and a connection keeps the schema of the message that it was opened for. -/

namespace Cohort

open Net (Endpoint)

/-- Whatever sender and recipient a message is given, it remains one that can be made. -/
theorem Message.Built.addressed {message : Message} (built : message.Built)
    (sender recipient : Option Member) :
    { message with sender, recipient }.Built := by
  cases built with
  | protocol own => exact .protocol own
  | @application _ _ _ _ message made => exact @application sender recipient _ _ message made

/-- A message given to a messenger, as the service and its applications make them. -/
structure Call where
  delivery : Delivery
  built : delivery.message.Built
  deriving DecidableEq

namespace Call

/-- The schema that a call asks for: the newest that the recipient understands, or the current one if
nothing is known of whoever listens. -/
def schema (call : Call) : Version :=
  match call.delivery.recipient with
  | .member m => Version.current.common m.version
  | .address _ => .current

def address? (call : Call) : Option Endpoint :=
  match call.delivery.recipient with
  | .member m => m.directAddress?
  | .address address => some address

/-- The message of a call, addressed. -/
def letter (call : Call) : Message :=
  match call.delivery.recipient with
  | .member m => { call.delivery.message with recipient := some m }
  | .address _ => call.delivery.message

theorem of_resolve {call : Call} {a : Messenger.Addressed}
    (resolved : Messenger.resolve call.delivery = .ok a) :
    call.address? = some a.address ∧ a.version = call.schema ∧ a.message = call.letter := by
  obtain ⟨⟨recipient, message⟩, built⟩ := call
  cases recipient with
  | address address =>
    cases resolved
    exact ⟨rfl, rfl, rfl⟩
  | member m =>
    simp only [Messenger.resolve] at resolved
    cases direct : m.directAddress? with
    | none => simp [direct] at resolved
    | some address =>
      simp only [direct] at resolved
      cases resolved
      exact ⟨direct, rfl, rfl⟩

theorem built_letter (call : Call) (self : Member) : { call.letter with sender := some self }.Built := by
  obtain ⟨⟨recipient, message⟩, built⟩ := call
  cases recipient with
  | address address => exact built.addressed (some self) message.recipient
  | member m => exact built.addressed (some self) (some m)

end Call

/-- A connection with the call that it was opened for. The ticket of a message is its call. -/
structure Channel where
  opener : Call
  line : Writer.Line (Option Call)

namespace Channel

def update (f : Writer.Line (Option Call) → Writer.Line (Option Call)) (c : Channel) : Channel :=
  { c with line := f c.line }

/-- Whether a message on the connection failed. -/
def failed (c : Channel) : Bool :=
  c.line.results.any fun (ticket, outcome) => ticket.isSome && !outcome.isOk

/-- The call that a result reports as written. -/
def success? : Option Call × Except ServiceError Unit → Option Call
  | (ticket, .ok ()) => ticket
  | (_, .error _) => none

/-- The calls that were answered with success. -/
def succeeded (c : Channel) : List Call := c.line.results.filterMap success?

/-- The frames behind the handshake. -/
def frames (c : Channel) : List (List UInt8) := (Frame.cut c.line.wire).frames.tail

/-- What is written of a call on this connection. -/
def said (c : Channel) (call : Call) : Message := { call.letter with sender := some c.line.writer.self }

end Channel

/-- A messenger with all the connections that it has opened, by their numbers. -/
structure Exchange where
  messenger : Messenger
  channels : List Channel := []

namespace Exchange

/-- What happens to a messenger. -/
inductive Move where
  /-- It is told whom its connections belong to. -/
  | named (self : Member)
  | call (call : Call)
  /-- A connection goes on. -/
  | act (number : Nat) (luck : Writer.Luck)
  /-- Whoever sent a message that failed gives the connection up. -/
  | discard (number : Nat)
  | disconnect (address : Endpoint)
  | close

/-- Something is queued on a connection. -/
def submit (number : Nat) (item : Outgoing (Option Call)) (channels : List Channel) : List Channel :=
  channels.modify number (·.update (·.submit item))

def step (x : Exchange) : Move → Exchange
  | .named self => { x with messenger := { x.messenger with self := some self } }
  | .call call =>
    match Messenger.resolve call.delivery with
    | .error _ => x
    | .ok a =>
      match x.messenger.route a x.channels.length with
      | .error _ => x
      | .ok (messenger, number, opened) =>
        let fresh := opened.map fun writer => { opener := call, line := { writer } }
        { messenger,
          channels := submit number (.message a.message (some call)) (x.channels ++ fresh.toList) }
  | .act number luck => { x with channels := x.channels.modify number (·.update (·.act luck)) }
  | .discard number =>
    match x.channels[number]? with
    | none => x
    | some c =>
      if c.failed then { x with messenger := x.messenger.discard c.line.writer.address number } else x
  | .disconnect address =>
    match x.messenger.link? address with
    | none => x
    | some number =>
      { messenger := x.messenger.removeLink address
        channels := submit number (.close none) x.channels }
  | .close =>
    { messenger := x.messenger.shut
      channels := x.messenger.links.foldl (fun channels link => submit link.2 (.close none) channels)
        x.channels }

def after (messenger : Messenger) (moves : List Move) : Exchange :=
  moves.foldl step { messenger := { messenger with links := [] } }

end Exchange

/-! ### Which connection a message goes on -/

section
variable {asked : Call → Prop} {address : Endpoint} {c : Channel}

/-- What may be queued on a connection to an address: a call that was asked for and reaches the address,
or the end. -/
inductive Call.Due (asked : Call → Prop) (address : Endpoint) : Outgoing (Option Call) → Prop
  | call {call : Call} (known : asked call) (reaches : call.address? = some address) :
      Due asked address (.message call.letter (some call))
  | close : Due asked address (.close none)

/-- A connection with the first message queued on it, which it is opened for. -/
def Channel.fresh (call : Call) (address : Endpoint) (self : Member) : Channel where
  opener := call
  line := .submit (.message call.letter (some call)) { writer := { address, self, version := call.schema } }

/-- A connection to an address was opened for a call that reaches it, and then used for such calls. -/
structure Channel.Sound (asked : Call → Prop) (address : Endpoint) (c : Channel) : Prop where
  known : asked c.opener
  opened : c.opener.address? = some address
  used : ∃ (self : Member) (moves : List (Writer.Move (Option Call))),
    c.line = (Channel.fresh c.opener address self).line.run moves ∧
      ∀ item ∈ moves.filterMap Writer.Move.item?, Call.Due asked address item

theorem Channel.Sound.step (sound : c.Sound asked address) (move : Writer.Move (Option Call))
    (due : ∀ item ∈ move.item?, Call.Due asked address item) :
    (c.update (·.step move)).Sound asked address := by
  obtain ⟨self, moves, run, items⟩ := sound.used
  refine ⟨sound.known, sound.opened, self, moves ++ [move], ?_, ?_⟩
  · rw [Channel.update, run, Writer.Line.run, Writer.Line.run, List.foldl_append]
    rfl
  · intro item member
    rw [List.filterMap_append] at member
    rcases List.mem_append.mp member with earlier | last
    · exact items item earlier
    · apply due item
      simpa using last

end

namespace Exchange

section
variable {asked : Call → Prop} {address : Endpoint} {number : Nat} {channels : List Channel} {x : Exchange}

/-- The connection with a number goes to an address. -/
def Serves (asked : Call → Prop) (channels : List Channel) (number : Nat) (address : Endpoint) : Prop :=
  ∃ c, channels[number]? = some c ∧ c.Sound asked address

/-- Every connection goes to an address, and the ones that are used for an address go there. -/
structure Sound (asked : Call → Prop) (x : Exchange) : Prop where
  all : ∀ number < x.channels.length, ∃ address, Serves asked x.channels number address
  linked : ∀ link ∈ x.messenger.links, Serves asked x.channels link.2 link.1

theorem Sound.channel (sound : x.Sound asked) {c : Channel} (member : c ∈ x.channels) :
    ∃ address, c.Sound asked address := by
  obtain ⟨number, counted, rfl⟩ := List.getElem_of_mem member
  obtain ⟨address, c, found, channel⟩ := sound.all number counted
  cases (List.getElem?_eq_getElem counted).symm.trans found
  exact ⟨address, channel⟩

theorem Serves.append (serves : Serves asked channels number address) (more : List Channel) :
    Serves asked (channels ++ more) number address := by
  obtain ⟨c, found, sound⟩ := serves
  refine ⟨c, ?_, sound⟩
  rw [List.getElem?_append_left (List.getElem?_eq_some_iff.mp found).1]
  exact found

theorem Serves.unique {address' : Endpoint} (serves : Serves asked channels number address)
    (also : Serves asked channels number address') : address = address' := by
  obtain ⟨c, found, sound⟩ := serves
  obtain ⟨c', found', sound'⟩ := also
  cases found.symm.trans found'
  exact Option.some.inj (sound.opened.symm.trans sound'.opened)

/-- What one connection does leaves every connection where it goes. -/
theorem Serves.modify (serves : Serves asked channels number address) {other : Nat}
    {move : Writer.Move (Option Call)}
    (due : ∀ address, Serves asked channels other address → ∀ item ∈ move.item?,
      Call.Due asked address item) :
    Serves asked (channels.modify other (·.update (·.step move))) number address := by
  obtain ⟨c, found, sound⟩ := serves
  by_cases same : other = number
  · subst same
    refine ⟨c.update (·.step move), ?_, sound.step move (due address ⟨c, found, sound⟩)⟩
    rw [List.getElem?_modify_eq, found]
    rfl
  · refine ⟨c, ?_, sound⟩
    rw [List.getElem?_modify_ne _ _ same, found]

/-- A messenger that goes on with some of its links, while one connection does something, is sound. -/
theorem Sound.modify (sound : x.Sound asked) {messenger : Messenger}
    (fewer : messenger.links ⊆ x.messenger.links) (move : Writer.Move (Option Call))
    (due : ∀ address, Serves asked x.channels number address → ∀ item ∈ move.item?,
      Call.Due asked address item) :
    Sound asked { messenger, channels := x.channels.modify number (·.update (·.step move)) } := by
  constructor
  · intro other counted
    rw [List.length_modify] at counted
    obtain ⟨address, serves⟩ := sound.all other counted
    exact ⟨address, serves.modify due⟩
  · intro link member
    exact (sound.linked link (fewer member)).modify due

theorem Sound.fewer (sound : x.Sound asked) {messenger : Messenger}
    (fewer : messenger.links ⊆ x.messenger.links) : Sound asked { x with messenger } :=
  ⟨sound.all, fun link member => sound.linked link (fewer member)⟩

theorem Sound.submit_close (sound : x.Sound asked) {messenger : Messenger}
    (fewer : messenger.links ⊆ x.messenger.links) (number : Nat) :
    Sound asked { messenger, channels := submit number (.close none) x.channels } := by
  apply sound.modify fewer (.submit (.close none))
  intro address _ item member
  cases member
  exact .close

/-- A message goes on the connection that is used for its address, or on a new one in its own schema. -/
theorem of_route {m messenger : Messenger} {a : Messenger.Addressed} {fresh : Nat}
    {opened : Option (Writer (Option Call))} (routed : m.route a fresh = .ok (messenger, number, opened)) :
    messenger = m ∧ (a.address, number) ∈ m.links ∧ opened = none ∨
      ∃ self, messenger = m.setLink a.address fresh ∧ number = fresh ∧
        opened = some { address := a.address, self, version := a.version } := by
  rw [Messenger.route] at routed
  cases named : m.identity with
  | error fault =>
    rw [named] at routed
    contradiction
  | ok self =>
    rw [named] at routed
    dsimp only at routed
    cases known : m.link? a.address with
    | some used =>
      rw [known] at routed
      cases routed
      obtain ⟨before, behind, links, -⟩ := List.lookup_eq_some_iff.mp known
      refine Or.inl ⟨rfl, ?_, rfl⟩
      rw [links]
      simp
    | none =>
      rw [known] at routed
      cases routed
      exact Or.inr ⟨self, rfl, rfl, rfl⟩

/-- A new connection goes to the address of the call that it is opened for. -/
theorem Sound.opens (sound : x.Sound asked) {call : Call} (known : asked call)
    (reaches : call.address? = some address) (self : Member) :
    Sound asked {
      messenger := x.messenger.setLink address x.channels.length
      channels := x.channels ++ [.fresh call address self] } := by
  have fresh : Serves asked (x.channels ++ [.fresh call address self]) x.channels.length address :=
    ⟨_, List.getElem?_concat_length, known, reaches, self, [], rfl, by simp⟩
  constructor
  · intro number counted
    rw [List.length_append, List.length_singleton] at counted
    rcases Nat.lt_succ_iff_lt_or_eq.mp counted with old | rfl
    · obtain ⟨address, serves⟩ := sound.all number old
      exact ⟨address, serves.append _⟩
    · exact ⟨address, fresh⟩
  · intro link member
    rcases List.mem_append.mp member with old | new
    · exact (sound.linked link old).append _
    · rw [List.mem_singleton.mp new]
      exact fresh

theorem submit_concat (item : Outgoing (Option Call)) (channels : List Channel) (c : Channel) :
    submit channels.length item (channels ++ [c]) = channels ++ [c.update (·.submit item)] := by
  simp [submit, List.modify_eq_take_drop]

/-- A call is queued on a connection that goes where the call goes. -/
theorem Sound.submit_call (sound : x.Sound asked) {call : Call} (known : asked call)
    (reaches : call.address? = some address) (serves : Serves asked x.channels number address) :
    Sound asked { x with channels := submit number (.message call.letter (some call)) x.channels } := by
  apply sound.modify (List.Subset.refl _) (.submit (.message call.letter (some call)))
  intro address' also item member
  cases member
  rw [← serves.unique also]
  exact .call known reaches

theorem Sound.call (sound : x.Sound asked) {call : Call} (known : asked call) :
    (x.step (.call call)).Sound asked := by
  simp only [step]
  cases resolved : Messenger.resolve call.delivery with
  | error fault => exact sound
  | ok a =>
    obtain ⟨reaches, schema, letter⟩ := Call.of_resolve resolved
    dsimp only
    cases routed : @Messenger.route (Option Call) x.messenger a x.channels.length with
    | error fault => exact sound
    | ok routing =>
      obtain ⟨messenger, number, opened⟩ := routing
      dsimp only
      rw [letter]
      -- Either the connection is found by the address of the call, or it is opened for the call.
      rcases of_route routed with ⟨rfl, link, rfl⟩ | ⟨self, rfl, rfl, rfl⟩
      · rw [Option.map_none, Option.toList_none, List.append_nil]
        exact sound.submit_call known reaches (sound.linked _ link)
      · rw [schema, Option.map_some, Option.toList_some, submit_concat]
        exact sound.opens known reaches self

theorem Sound.closes (sound : x.Sound asked) (links : List (Endpoint × Nat)) :
    Sound asked { messenger := x.messenger
                  channels := links.foldl (fun channels link => submit link.2 (.close none) channels)
                    x.channels } := by
  induction links generalizing x with
  | nil => exact sound
  | cons link rest ih => exact ih (sound.submit_close (List.Subset.refl _) link.2)

theorem Sound.step (sound : x.Sound asked) {move : Move}
    (known : ∀ call, move = .call call → asked call) :
    (x.step move).Sound asked := by
  cases move with
  | named self => exact sound.fewer (List.Subset.refl _)
  | call call => exact sound.call (known call rfl)
  | act number luck =>
    apply sound.modify (List.Subset.refl _) (.act luck)
    intro _ _ item member
    cases member
  | discard number =>
    simp only [Exchange.step]
    split
    · exact sound
    · split
      · exact sound.fewer List.filter_sublist.subset
      · exact sound
  | disconnect address =>
    simp only [Exchange.step]
    split
    · exact sound
    · exact sound.submit_close List.filter_sublist.subset _
  | close => exact (sound.closes x.messenger.links).fewer (List.nil_subset _)

theorem sound_after (messenger : Messenger) {moves : List Move}
    (known : ∀ call, .call call ∈ moves → asked call) :
    (after messenger moves).Sound asked := by
  induction moves using List.reverseRecOn with
  | nil => exact ⟨fun _ counted => absurd counted (Nat.not_lt_zero _), fun _ member => by cases member⟩
  | append_singleton moves move ih =>
    rw [after, List.foldl_append]
    have earlier := ih fun call member => known call (List.mem_append_left _ member)
    apply earlier.step
    rintro call rfl
    exact known call List.mem_concat_self

end

end Exchange

/-! ### What is written on a connection -/

section
variable {asked : Call → Prop} {address : Endpoint} {c : Channel}

/-- What was answered without being written is no success. -/
theorem Channel.success?_of_answered {item : Outgoing (Option Call)}
    {result : Option Call × Except ServiceError Unit} (answered : Writer.Answered item result)
    (due : Call.Due asked address item) : success? result = none := by
  cases due with
  | call known reaches =>
    obtain ⟨fault, rfl⟩ := answered
    rfl
  | close =>
    cases answered
    rfl

theorem Channel.filterMap_success?_of_answered {items : List (Outgoing (Option Call))}
    {results : List (Option Call × Except ServiceError Unit)}
    (answered : List.Forall₂ Writer.Answered items results)
    (due : ∀ item ∈ items, Call.Due asked address item) : results.filterMap success? = [] := by
  induction answered with
  | nil => rfl
  | cons head _ ih =>
    rw [List.filterMap_cons, success?_of_answered head (due _ List.mem_cons_self)]
    exact ih fun item member => due item (List.mem_cons_of_mem _ member)

/-- A call and the frame that is written of it. -/
structure Channel.Writes (asked : Call → Prop) (address : Endpoint) (c : Channel) (call : Call)
    (frame : List UInt8) : Prop where
  known : asked call
  reaches : call.address? = some address
  encoded : Codec.encode c.opener.schema (c.said call) = .ok frame

theorem Channel.writes_of_encoded {sent : List (Message × Option Call)} {frames : List (List UInt8)}
    (due : ∀ p ∈ sent, Call.Due asked address (.message p.1 p.2))
    (encoded : frames.map Except.ok = sent.map fun p =>
      Codec.encode c.opener.schema { p.1 with sender := some c.line.writer.self }) :
    List.Forall₂ (c.Writes asked address) (sent.filterMap Prod.snd) frames := by
  induction sent generalizing frames with
  | nil =>
    obtain rfl := List.map_eq_nil_iff.mp encoded
    exact .nil
  | cons p rest ih =>
    obtain ⟨message, ticket⟩ := p
    obtain ⟨frame, frames, rfl, first, others⟩ := List.map_eq_cons_iff.mp encoded
    cases due _ List.mem_cons_self with
    | call known reaches =>
      have later := ih (fun p member => due p (List.mem_cons_of_mem _ member)) others
      exact .cons ⟨known, reaches, first.symm⟩ later

/-- A sound connection answers honestly, beginning with the call that it was opened for. -/
theorem Channel.Sound.honest (sound : c.Sound asked address) :
    ∃ items sent unsent,
      Writer.Honest (.message c.opener.letter (some c.opener) :: items) c.line sent unsent ∧
      (∀ item ∈ .message c.opener.letter (some c.opener) :: items, Call.Due asked address item) ∧
      c.line.writer.version = c.opener.schema := by
  obtain ⟨self, moves, run, due⟩ := sound.used
  let blank : Writer.Line (Option Call) := { writer := { address, self, version := c.opener.schema } }
  let opening : Writer.Move (Option Call) := .submit (.message c.opener.letter (some c.opener))
  replace run : c.line = blank.run (opening :: moves) := run
  obtain ⟨sent, unsent, honest⟩ := Writer.honest_run address self c.opener.schema (opening :: moves)
  obtain ⟨-, schema⟩ := Writer.configured_run blank (opening :: moves)
  rw [← run] at honest schema
  exact ⟨moves.filterMap Writer.Move.item?, sent, unsent, honest,
    List.forall_mem_cons.mpr ⟨.call sound.known sound.opened, due⟩, schema⟩

/-- The calls that succeeded are those of the messages that were sent. -/
theorem Channel.succeeded_of_honest {items unsent : List (Outgoing (Option Call))}
    {sent : List (Message × Option Call)} (honest : Writer.Honest items c.line sent unsent)
    (due : ∀ item ∈ items, Call.Due asked address item) : c.succeeded = sent.filterMap Prod.snd := by
  obtain ⟨answers, results, answered⟩ := honest.results
  rw [honest.items] at due
  have silent : answers.filterMap success? = [] :=
    filterMap_success?_of_answered answered fun item member =>
      due item (List.mem_append_left _ (List.mem_append_right _ member))
  rw [Channel.succeeded, results, List.filterMap_append, silent, List.append_nil, List.filterMap_map]
  rfl

/-- Behind the handshake there is one frame for each call that succeeded, in their order. -/
theorem Channel.Sound.writes (sound : c.Sound asked address) :
    List.Forall₂ (c.Writes asked address) c.succeeded c.frames := by
  obtain ⟨items, sent, unsent, honest, due, schema⟩ := sound.honest
  rw [Channel.succeeded_of_honest honest due]
  rw [honest.items] at due
  apply writes_of_encoded
  · intro p member
    exact due _ (List.mem_append_left _ (List.mem_append_left _ (List.mem_map_of_mem member)))
  · rcases honest.stands.framed with ⟨none, bare⟩ | written
    · rw [Channel.frames, bare, List.map_eq_nil_iff.mp none]
      rfl
    · rw [Channel.frames, List.map_tail, written, Writer.script, schema, List.map_map]
      exact List.map_map

/-- If any call succeeds, the one that the connection was opened for is the first. -/
theorem Channel.Sound.first (sound : c.Sound asked address) :
    ∀ first ∈ c.succeeded.head?, first = c.opener := by
  obtain ⟨items, sent, unsent, honest, due, -⟩ := sound.honest
  rw [Channel.succeeded_of_honest honest due]
  cases sent with
  | nil => simp
  | cons p rest =>
    obtain ⟨message, ticket⟩ := p
    obtain ⟨begins, -⟩ := List.cons.inj honest.items
    cases begins
    simp

end

/-! ### The schema of a frame -/

/-- The frame of a call is in the schema that the call asks for, and a peer of that schema reads it. -/
structure Channel.Suits (c : Channel) (call : Call) (frame : List UInt8) : Prop where
  encoded : Codec.encode call.schema (c.said call) = .ok frame
  read : Codec.decode call.schema frame = .ok ((c.said call).forVersion call.schema)

theorem Channel.Writes.suits_iff {asked : Call → Prop} {address : Endpoint} {c : Channel} {call : Call}
    {frame : List UInt8} (writes : c.Writes asked address call frame) :
    (c.Suits call frame ↔ call.schema = c.opener.schema) ∧
      Codec.decode call.schema frame =
        if call.schema < c.opener.schema then .error (.newerSchema c.opener.schema call.schema)
        else .ok ((c.said call).forVersion c.opener.schema) := by
  have built : (c.said call).Built := call.built_letter c.line.writer.self
  obtain ⟨fits, rfl⟩ := Codec.of_encode writes.encoded
  have read := Codec.decode_written call.schema (Codec.numbered_of_built built) fits
  refine ⟨⟨?_, ?_⟩, read⟩
  · intro suits
    exact Codec.schema_unique built suits.encoded writes.encoded
  · intro same
    have still : ¬ c.opener.schema < c.opener.schema := UInt16.lt_irrefl c.opener.schema.ordinal
    constructor
    · rw [same]
      exact writes.encoded
    · rw [read, same, if_neg still]

namespace Exchange

/-- Behind its handshake a connection carries one frame for each call that was answered with
success, in their order, all to one address. All are in the schema of the first of these calls: the
frame of a call is in the schema that the call asks for exactly if the first asks for the same, and
a peer of that schema refuses it exactly if the first asks for a newer one. So every frame suits its
call if no two calls that reach the same address ask for different schemas. -/
theorem frame_suits_iff (messenger : Messenger) (moves : List Move) :
    (∀ c ∈ (after messenger moves).channels, ∃ address,
      List.Forall₂ (c.Writes (fun call => .call call ∈ moves) address) c.succeeded c.frames ∧
        ∀ first ∈ c.succeeded.head?, ∀ call frame, (call, frame) ∈ c.succeeded.zip c.frames →
          (c.Suits call frame ↔ call.schema = first.schema) ∧
            Codec.decode call.schema frame =
              if call.schema < first.schema then .error (.newerSchema first.schema call.schema)
              else .ok ((c.said call).forVersion first.schema)) ∧
      ((∀ call call', .call call ∈ moves → .call call' ∈ moves → call.address? = call'.address? →
          call.schema = call'.schema) →
        ∀ c ∈ (after messenger moves).channels, List.Forall₂ c.Suits c.succeeded c.frames) := by
  have sound : (after messenger moves).Sound fun call => .call call ∈ moves :=
    sound_after messenger fun call member => member
  constructor
  · intro c member
    obtain ⟨address, channel⟩ := sound.channel member
    refine ⟨address, channel.writes, ?_⟩
    intro first heads call frame paired
    rw [channel.first first heads]
    exact ((List.forall₂_iff_zip.mp channel.writes).2 paired).suits_iff
  · intro uniform c member
    obtain ⟨address, channel⟩ := sound.channel member
    apply channel.writes.imp
    intro call frame writes
    apply writes.suits_iff.1.mpr
    exact uniform call c.opener writes.known channel.known (writes.reaches.trans channel.opened.symm)

/-- Somebody with a direct channel who understands the older schema only. -/
def oldPeer : Member := { Member.peer 2 with version := .v1, directPort := 3 }

/-- An application message for whoever that is. -/
def noteTo (recipient : Recipient) : Call where
  delivery := { recipient, message := .of (.application 7 [1]) }
  built := @Message.Built.application none none 7 [1] _ rfl

def listening : Messenger where
  address := { ip := .v4 0x7f000001, port := 4 }
  connectTimeout := .ofSecs 1
  shutdownTimeout := .ofSecs 1

/-- All that is sent to the older peer is sent by its name. -/
def introduced : List Move :=
  [.named (.peer 1), .call (noteTo (.member oldPeer)), .act 0 .succeeds, .act 0 .succeeds,
    .act 0 .succeeds, .call (noteTo (.member oldPeer)), .act 0 .succeeds]

theorem introduced_suits :
    (after listening introduced).channels.map (·.succeeded.length) = [2] ∧
      ∀ c ∈ (after listening introduced).channels, List.Forall₂ c.Suits c.succeeded c.frames := by
  have only : ∀ call, .call call ∈ introduced → call = noteTo (.member oldPeer) := by
    simp [introduced]
  refine ⟨by decide +kernel, (frame_suits_iff listening introduced).2 fun call call' first second _ => ?_⟩
  rw [only call first, only call' second]

/-- The address of the older peer is written to before anything is known of the peer. -/
def acquainted : List Move :=
  [.named (.peer 1), .call (noteTo (.address { ip := .v4 0x7f000001, port := 3 })),
    .act 0 .succeeds, .act 0 .succeeds, .act 0 .succeeds, .call (noteTo (.member oldPeer)),
    .act 0 .succeeds]

/-- What is sent to the older peer is in the newer schema, and it cannot read that. -/
theorem acquainted_unreadable :
    ∃ c ∈ (after listening acquainted).channels, ∃ p ∈ c.succeeded.zip c.frames,
      p.1 = noteTo (.member oldPeer) ∧
        Codec.encode (Version.current.common oldPeer.version) (c.said p.1) ≠ .ok p.2 ∧
        Codec.decode (Version.current.common oldPeer.version) p.2 = .error (.newerSchema .v2 .v1) := by
  decide +kernel

end Exchange

end Cohort
