import AcousticNode.Proofs.Node.Acknowledgement
import AcousticNode.Proofs.Node.Reply
import AcousticNode.Proofs.Node.Run

/-!
# Replies that reach a node

What a reply does when it is delivered to a node itself.  An answer is refused and an error report
is ignored, so neither does anything.  A change that is repeated is a change: a node that it is
addressed to makes it too, and repeats it in turn.  So nodes that name each other can go on
repeating a change for ever, and that is the only way in which replies go on.

* `receive_reply` : the delivery of a reply, and every conversation that a frame starts;
* `length_exchange` : a change of the hydrophone between two nodes that name each other.
-/

set_option autoImplicit false

namespace AcousticNode

/-- A packet says the same change again. -/
structure Packet.Repeats (request reply : Packet) : Prop where
  isChange_eq : request.opcode.isChange = true
  opcode_eq : reply.opcode = request.opcode
  payload_eq : reply.payload = request.payload

/-- The kinds of replies to a request. -/
inductive Follows (request reply : Packet) : Prop where
  | answer (question : request.payload.purpose = .question)
      (answer : reply.payload.purpose = .answer)
  | echo (repeats : request.Repeats reply)
  | refusal (opcode_eq : reply.opcode = .errorReport)

/-- A reply to the request in a frame. -/
structure Replied (raw : Bytes) (request reply : Packet) : Prop where
  decode_eq : Packet.decode raw = .ok request
  follows : Follows request reply
  receiver_eq : reply.routing.receiver = request.routing.sender
  decode_wire : Packet.decode reply.wire = .ok reply

/-! ## Purposes and operation codes -/

theorem Payload.isChange_iff {op : Opcode} {routing : Routing} {payload : Payload}
    (h : payload.fits op routing = true) : op.isChange = true ↔ payload.purpose = .change := by
  cases payload <;> cases op <;> simp_all [fits, purpose, Opcode.isChange]

theorem Payload.isRefusal_iff {op : Opcode} {routing : Routing} {payload : Payload}
    (h : payload.fits op routing = true) : op = .errorReport ↔ payload.purpose = .refusal := by
  cases payload <;> cases op <;> simp_all [fits, purpose]

/-- A change is told from its payload. -/
theorem Payload.opcode_of_change {op op' : Opcode} {routing routing' : Routing}
    {payload : Payload} (h : payload.fits op routing = true) (h' : payload.fits op' routing' = true)
    (hchange : payload.purpose = .change) : op = op' := by
  cases payload <;> simp_all [fits, purpose]

theorem Packet.Repeats.trans {p q r : Packet} (h : p.Repeats q) (h' : q.Repeats r) :
    p.Repeats r :=
  ⟨h.isChange_eq, h'.opcode_eq.trans h.opcode_eq, h'.payload_eq.trans h.payload_eq⟩

/-! ## One reply -/

variable {σ τ : Type} [ConfigurationStore σ] [ConfigurationStore τ]

theorem Routine.Reply.replied {r : Routine} {localAddress : Address} {raw : Bytes}
    {request reply : Packet} (h : r.Reply localAddress request reply)
    (hdecode : Packet.decode raw = .ok request) : Replied raw request reply where
  decode_eq := hdecode
  follows := by
    rcases h.purpose with ⟨hquestion, hanswer⟩ | ⟨hchange, hpayload⟩
    · exact .answer hquestion hanswer
    · have hfits := Packet.fits_of_decode hdecode
      have hfits' := h.fits
      rw [hpayload] at hfits'
      refine .echo ⟨(Payload.isChange_iff hfits).mpr hchange, ?_, hpayload⟩
      exact h.opcode_eq.trans (Payload.opcode_of_change hfits' hfits hchange)
  receiver_eq := by
    rw [h.routing_eq]
    rfl
  decode_wire := (Packet.Obtained.made h.made).decode_wire

theorem Replied.of_refusal {raw : Bytes} {request : Packet}
    (hdecode : Packet.decode raw = .ok request) (localAddress : Address) (code : ErrorCode) :
    Replied raw request (.errorReport (request.routing.reply localAddress) code) where
  decode_eq := hdecode
  follows := .refusal rfl
  receiver_eq := rfl
  decode_wire := (Packet.Obtained.reported _ code).decode_wire

/-- A reply that is a change is the change that was asked for. -/
theorem Replied.repeats {raw : Bytes} {request reply : Packet} (h : Replied raw request reply)
    (hchange : reply.opcode.isChange = true) : request.Repeats reply := by
  have hpurpose := (Payload.isChange_iff (Packet.fits_of_decode h.decode_wire)).mp hchange
  cases h.follows with
  | answer _ hanswer =>
    rw [hpurpose] at hanswer
    cases hanswer
  | echo repeats => exact repeats
  | refusal hrefusal =>
    rw [hrefusal] at hchange
    cases hchange

theorem Dispatcher.answer_replied (d : Dispatcher) (ctx : Context) (mem : Memory σ) {raw : Bytes}
    {request : Packet} (hdecode : Packet.decode raw = .ok request) :
    Replied raw request (d.answer ctx mem request).1 := by
  rcases d.fst_answer_cases ctx mem request with ⟨_, heq⟩ | ⟨r, _, hok | ⟨e, _, heq⟩⟩
  · rw [heq]
    exact .of_refusal hdecode _ _
  · exact (Routine.reply_of_run hok).replied hdecode
  · rw [heq]
    exact .of_refusal hdecode _ _

namespace Node

theorem replied_of_receive {n : Node σ} {raw : Bytes} {reply : Packet}
    (h : (n.receive raw).1 = some reply) : ∃ request, Replied raw request reply := by
  rcases n.receive_cases raw with ⟨c, request, htakes, heq⟩ | ⟨_, heq⟩
  · rw [heq] at h
    cases h
    exact ⟨request, n.dispatcher.answer_replied _ n.memory htakes.decode_eq⟩
  · rw [heq] at h
    cases h

/-! ## What a packet does to a node, by its purpose -/

variable {raw : Bytes} {p : Packet}

theorem receive_of_refusal (n : Node σ) (hdecode : Packet.decode raw = .ok p)
    (h : p.opcode = .errorReport) : n.receive raw = (none, n) := by
  refine receive_of_not_takes fun c request htakes => ?_
  obtain rfl : request = p := Except.ok.inj (htakes.decode_eq.symm.trans hdecode)
  exact ((accepts_iff hdecode _).mp htakes.accepts_eq).2 h

theorem written_of_plain (d : Dispatcher) (mem : Memory σ) (h : p.payload.purpose ≠ .change) :
    d.written mem p = mem := by
  unfold Dispatcher.written
  split
  · rfl
  · rename_i r _
    rcases r.written_cases σ p.payload with ⟨_, _, heq⟩ | ⟨_, _, heq⟩ | hsame
    · exact absurd (congrArg Payload.purpose heq) h
    · exact absurd (congrArg Payload.purpose heq) h
    · exact hsame mem

/-- A packet that is neither a question nor a change is refused at most. -/
theorem receive_of_plain (n : Node σ) (hdecode : Packet.decode raw = .ok p)
    (hquestion : p.payload.purpose ≠ .question) (hchange : p.payload.purpose ≠ .change) :
    n.receive raw = (none, n) ∨
      ∃ report, n.receive raw = (some report, n) ∧ report.opcode = .errorReport := by
  rcases n.receive_cases raw with ⟨c, request, htakes, heq⟩ | ⟨_, heq⟩
  · obtain rfl : request = p := Except.ok.inj (htakes.decode_eq.symm.trans hdecode)
    rw [written_of_plain _ _ hchange] at heq
    refine .inr ⟨_, heq, ?_⟩
    rcases n.dispatcher.fst_answer_cases (n.context c.localAddress) n.memory request with
      ⟨_, hreply⟩ | ⟨r, _, hok | ⟨e, _, hreply⟩⟩
    · rw [hreply]
      rfl
    · obtain ⟨e, he⟩ := r.run_eq_error (n.context c.localAddress) n.memory hquestion hchange
      rw [he] at hok
      cases hok
    · rw [hreply]
      rfl
  · exact .inl heq

/-! ## A reply that is delivered -/

/-- What a node does with the reply to a request. -/
structure Delivered (n : Node τ) (request reply : Packet) : Prop where
  /-- A reply that repeats no change does nothing, and is refused at most. -/
  of_plain : reply.opcode.isChange = false → n.receive reply.wire = (none, n) ∨
    ∃ report, n.receive reply.wire = (some report, n) ∧ report.opcode = .errorReport
  /-- Changes are repeated for the sender of the request only. -/
  of_others : (∀ c, n.configuration = .ok c → request.routing.sender ≠ c.localAddress ∧
    request.routing.sender ≠ .broadcast) → n.receive reply.wire = (none, n)
  /-- A node that the change is repeated for makes it, and repeats it, or refuses. -/
  of_echo : reply.opcode.isChange = true → request.Repeats reply ∧
    ∀ c, n.configuration = .ok c →
      request.routing.sender = c.localAddress ∨ request.routing.sender = .broadcast →
      ∃ next, (n.receive reply.wire).1 = some next ∧
        (reply.Repeats next ∨ next.opcode = .errorReport) ∧
        Acknowledged n.memory reply next (n.receive reply.wire).2.memory

theorem receive_of_echo [ReliableStore τ] {n : Node τ} {raw : Bytes} {p : Packet}
    (hdecode : Packet.decode raw = .ok p) (hchange : p.opcode.isChange = true)
    {c : Configuration} (hc : n.configuration = .ok c)
    (hreceiver : p.routing.receiver = c.localAddress ∨ p.routing.receiver = .broadcast) :
    ∃ next, (n.receive raw).1 = some next ∧ (p.Repeats next ∨ next.opcode = .errorReport) ∧
      Acknowledged n.memory p next (n.receive raw).2.memory := by
  have hfits := Packet.fits_of_decode hdecode
  have hpurpose := (Payload.isChange_iff hfits).mp hchange
  have hop : p.opcode ≠ .errorReport := by
    intro hop
    rw [hop] at hchange
    cases hchange
  have htakes : n.Takes raw c p := ⟨hdecode, hc, (accepts_iff hdecode _).mpr ⟨hreceiver, hop⟩⟩
  have hreceive := receive_of_takes htakes
  have hreply := congrArg Prod.fst hreceive
  refine ⟨_, hreply, ?_, ?_⟩
  · cases (n.dispatcher.answer_replied (n.context c.localAddress) n.memory hdecode).follows with
    | answer hquestion _ =>
      rw [hpurpose] at hquestion
      cases hquestion
    | echo repeats => exact .inl repeats
    | refusal hrefusal => exact .inr hrefusal
  · rw [hreceive, ← n.dispatcher.snd_answer (n.context c.localAddress)]
    exact n.dispatcher.answer_acknowledged hdecode _ n.memory

theorem delivered [ReliableStore τ] (n : Node τ) {raw : Bytes} {request reply : Packet}
    (h : Replied raw request reply) : n.Delivered request reply where
  of_plain hplain := by
    have hfits := Packet.fits_of_decode h.decode_wire
    -- a reply is no question, so without a change there is nothing left to do for it
    have hchange : reply.payload.purpose ≠ .change := by
      intro hpurpose
      rw [(Payload.isChange_iff hfits).mpr hpurpose] at hplain
      cases hplain
    refine n.receive_of_plain h.decode_wire ?_ hchange
    cases h.follows with
    | answer _ hanswer =>
      rw [hanswer]
      nofun
    | echo repeats =>
      rw [repeats.opcode_eq, repeats.isChange_eq] at hplain
      cases hplain
    | refusal hrefusal =>
      rw [(Payload.isRefusal_iff hfits).mp hrefusal]
      nofun
  of_others hothers := by
    refine receive_of_not_takes fun c p htakes => ?_
    obtain rfl : p = reply := Except.ok.inj (htakes.decode_eq.symm.trans h.decode_wire)
    have hreceiver := ((accepts_iff h.decode_wire _).mp htakes.accepts_eq).1
    rw [h.receiver_eq] at hreceiver
    obtain ⟨hlocal, hall⟩ := hothers c htakes.configuration_eq
    exact hreceiver.elim hlocal hall
  of_echo hchange := by
    refine ⟨h.repeats hchange, fun c hc hsender => ?_⟩
    rw [← h.receiver_eq] at hsender
    exact receive_of_echo h.decode_wire hchange hc hsender

/-! ## Conversations -/

/-- Replies of any nodes in any states, the first to a frame and every other to the one before. -/
inductive Conversation : Bytes → List Packet → Prop where
  | silence (raw : Bytes) : Conversation raw []
  | reply {σ : Type} [ConfigurationStore σ] (n : Node σ) {raw : Bytes} {reply : Packet}
      {replies : List Packet} (h : (n.receive raw).1 = some reply)
      (rest : Conversation reply.wire replies) : Conversation raw (reply :: replies)

/-- Replies that repeat a change, then two at most that do not. -/
def Dwindles (request : Packet) (replies : List Packet) : Prop :=
  ∃ echoes rest, replies = echoes ++ rest ∧ rest.length ≤ 2 ∧
    (∀ p ∈ echoes, request.Repeats p) ∧ ∀ p ∈ rest, p.opcode.isChange = false

namespace Conversation

variable {raw : Bytes} {request : Packet} {replies : List Packet}

theorem of_refusal (h : Conversation raw replies) (hdecode : Packet.decode raw = .ok request)
    (hrefusal : request.opcode = .errorReport) : replies = [] := by
  cases h with
  | silence => rfl
  | reply n hreply _ =>
    rw [n.receive_of_refusal hdecode hrefusal] at hreply
    cases hreply

theorem of_answer (h : Conversation raw replies) (hdecode : Packet.decode raw = .ok request)
    (hanswer : request.payload.purpose = .answer) :
    replies = [] ∨ ∃ report, replies = [report] ∧ report.opcode = .errorReport := by
  cases h with
  | silence => exact .inl rfl
  | reply n hreply rest =>
    rcases n.receive_of_plain hdecode (by rw [hanswer]; nofun) (by rw [hanswer]; nofun) with
      heq | ⟨report, heq, hrefusal⟩
    · rw [heq] at hreply
      cases hreply
    · rw [heq] at hreply
      cases hreply
      obtain ⟨_, hreplied⟩ := replied_of_receive (congrArg Prod.fst heq)
      rw [rest.of_refusal hreplied.decode_wire hrefusal]
      exact .inr ⟨_, rfl, hrefusal⟩

theorem dwindles (h : Conversation raw replies) (hdecode : Packet.decode raw = .ok request) :
    Dwindles request replies := by
  -- by induction on the echoes: what follows another reply is settled above
  induction h generalizing request with
  | silence => exact ⟨[], [], rfl, Nat.zero_le 2, List.forall_mem_nil _, List.forall_mem_nil _⟩
  | @reply σ _ n raw reply replies hreply rest ih =>
    obtain ⟨request', hreplied⟩ := replied_of_receive hreply
    obtain rfl : request' = request := Except.ok.inj (hreplied.decode_eq.symm.trans hdecode)
    cases hreplied.follows with
    | answer _ hanswer =>
      have hplain : reply.opcode.isChange = false := by
        rw [Bool.eq_false_iff, ne_eq,
          Payload.isChange_iff (Packet.fits_of_decode hreplied.decode_wire), hanswer]
        nofun
      rcases rest.of_answer hreplied.decode_wire hanswer with rfl | ⟨report, rfl, hrefusal⟩
      · exact ⟨[], [reply], rfl, Nat.le_succ 1, List.forall_mem_nil _,
          List.forall_mem_singleton.mpr hplain⟩
      · refine ⟨[], [reply, report], rfl, Nat.le_refl 2, List.forall_mem_nil _, ?_⟩
        refine List.forall_mem_cons.mpr ⟨hplain, List.forall_mem_singleton.mpr ?_⟩
        rw [hrefusal]
        rfl
    | echo repeats =>
      obtain ⟨echoes, others, heq, hlen, hechoes, hothers⟩ := ih hreplied.decode_wire
      refine ⟨reply :: echoes, others, by rw [heq]; rfl, hlen, ?_, hothers⟩
      exact List.forall_mem_cons.mpr ⟨repeats, fun p hp => repeats.trans (hechoes p hp)⟩
    | refusal hrefusal =>
      rw [rest.of_refusal hreplied.decode_wire hrefusal]
      refine ⟨[], [reply], rfl, Nat.le_succ 1, List.forall_mem_nil _,
        List.forall_mem_singleton.mpr ?_⟩
      rw [hrefusal]
      rfl

end Conversation

/-! ## Two nodes -/

/-- The replies of two nodes to each other, the first to a frame, up to a number of them. -/
def exchange (limit : Nat) {σ τ : Type} [ConfigurationStore σ] [ConfigurationStore τ] (a : Node σ)
    (b : Node τ) (raw : Bytes) : List Packet :=
  match limit with
  | 0 => []
  | limit + 1 =>
    match (a.receive raw).1 with
    | none => []
    | some reply => reply :: exchange limit b (a.receive raw).2 reply.wire

theorem conversation_exchange (limit : Nat) {σ τ : Type} [ConfigurationStore σ]
    [ConfigurationStore τ] (a : Node σ) (b : Node τ) (raw : Bytes) :
    Conversation raw (exchange limit a b raw) := by
  induction limit generalizing σ τ raw with
  | zero => exact .silence raw
  | succ limit ih =>
    rw [exchange]
    cases hreply : (a.receive raw).1 with
    | none => exact .silence raw
    | some reply => exact .reply a hreply (ih b _ reply.wire)

/-- **Replies act as requests only where they repeat a change.**  An answer or an error report
changes nothing at the node that it is delivered to and gets an error report at most, to which no
node replies.  A change that is repeated is made by the node that it comes to if that node has
the address that the request was sent from, and by no other.  So an exchange between two nodes,
and every conversation, is the same change over and over, and two more replies at most. -/
theorem receive_reply [ReliableStore τ] (a : Node σ) (b : Node τ) (raw : Bytes) (reply : Packet)
    (h : (a.receive raw).1 = some reply) :
    ∃ request, Packet.decode raw = .ok request ∧ b.Delivered request reply ∧
      (∀ raw' p, Packet.decode raw' = .ok p → p.opcode = .errorReport →
        a.receive raw' = (none, a) ∧ b.receive raw' = (none, b)) ∧
      (∀ limit, Dwindles request (exchange limit a b raw)) ∧
      ∀ replies, Conversation raw replies → Dwindles request replies := by
  obtain ⟨request, hreplied⟩ := replied_of_receive h
  have hdwindles : ∀ replies, Conversation raw replies → Dwindles request replies :=
    fun _ hconversation => hconversation.dwindles hreplied.decode_eq
  exact ⟨request, hreplied.decode_eq, b.delivered hreplied,
    fun _ _ hdecode hop => ⟨a.receive_of_refusal hdecode hop, b.receive_of_refusal hdecode hop⟩,
    fun limit => hdwindles _ (conversation_exchange limit a b raw), hdwindles⟩

/-- A status report goes to all, since it was asked for in the name of all, and reaches a node that
started from a missing file. -/
theorem receive_reply_basicStatus :
    let request := Packet.sealed .basicStatus ⟨.broadcast, ⟨5⟩, 9⟩ .empty
    let report : BasicReport := ⟨⟨77, .charging⟩, ⟨⟨0⟩, ⟨0⟩⟩, ⟨0⟩⟩
    let reply := Packet.sealed .basicStatus (.toAll ⟨5⟩) (.basicReport report)
    let a : Node MemoryStore := ⟨⟨⟨77, .charging⟩, ⟨⟨0⟩, ⟨0⟩⟩, 0, ⟨0⟩⟩,
      ⟨⟨{ Configuration.default with localAddress := ⟨5⟩ }, true⟩, .empty⟩, .standard, ⟨0, 0, 0⟩⟩
    let b : Node FileStore := ⟨a.peripherals, ⟨.ofPath "node.json", .empty⟩, .standard, ⟨0, 0, 0⟩⟩
    (a.receive request.wire).1 = some reply ∧ b.Delivered request reply ∧
      ∀ limit, Dwindles request (exchange limit a b request.wire) := by
  intro request report reply a b
  have hspells : Packet.Spells request.wire request [] := Packet.spells_sealed rfl (by decide)
  have hdecode : Packet.decode request.wire = .ok request :=
    (Packet.Carried.of_spells hspells).decode_wire
  have hreply : (a.receive request.wire).1 = some reply := by
    rw [receive, Frame.ofBytes, hdecode]
    rfl
  obtain ⟨request', hrequest', hdelivered, _, hdwindles, _⟩ :=
    receive_reply a b request.wire reply hreply
  obtain rfl : request' = request := Except.ok.inj (hrequest'.symm.trans hdecode)
  exact ⟨hreply, hdelivered, hdwindles⟩

/-! ## Changes that are repeated for ever -/

/-- A node at an address that takes over what it is told of the hydrophone. -/
structure Listens (n : Node σ) (address : Address) : Prop where
  routine_eq : n.dispatcher.routine? .setHydrophone = some .storeHydrophone
  exists_configuration : ∃ c, n.configuration = .ok c ∧ c.localAddress = address

theorem receive_hydrophoneChange {n : Node σ} {address : Address} (hn : n.Listens address)
    {raw : Bytes} {request : Packet} (hdecode : Packet.decode raw = .ok request)
    (hreceiver : request.routing.receiver = address) {update : HydrophoneUpdate}
    (hpayload : request.payload = .hydrophoneChange update) :
    ∃ reply, (n.receive raw).1 = some reply ∧ request.Repeats reply ∧
      reply.routing = ⟨address, request.routing.sender, 3⟩ ∧
      Packet.decode reply.wire = .ok reply ∧ (n.receive raw).2.Listens address ∧
      (n.receive raw).2.memory.cache = n.memory.cache.store update := by
  obtain ⟨hroutine, c, hc, rfl⟩ := hn
  have hfits := Packet.fits_of_decode hdecode
  have hop : request.opcode = .setHydrophone := by
    rw [hpayload] at hfits
    exact eq_of_beq hfits
  have hroutine' : n.dispatcher.routine? request.opcode = some .storeHydrophone := by
    rw [hop, hroutine]
  have hother : request.opcode ≠ .errorReport := by
    rw [hop]
    nofun
  have htakes : n.Takes raw c request :=
    ⟨hdecode, hc, (accepts_iff hdecode _).mpr ⟨.inl hreceiver, hother⟩⟩
  have hmake : Packet.make .setHydrophone (request.routing.reply c.localAddress)
      (.hydrophoneChange update) = .ok _ := Packet.make_payload_of_decode hdecode hpayload rfl
  have hanswer : n.dispatcher.answer (n.context c.localAddress) n.memory request =
      (.sealed .setHydrophone (request.routing.reply c.localAddress) (.hydrophoneChange update),
        { n.memory with cache := n.memory.cache.store update }) := by
    simp only [Dispatcher.answer, hroutine', Routine.run, Routine.answerStore, hpayload]
    rw [show (n.context c.localAddress).localAddress = c.localAddress from rfl, hmake]
  have hreceive := receive_of_takes htakes
  rw [← n.dispatcher.snd_answer (n.context c.localAddress), hanswer] at hreceive
  rw [hreceive]
  exact ⟨_, rfl, ⟨by rw [hop]; rfl, hop.symm, hpayload.symm⟩,
    Routing.reply_of_accepted (.inl hreceiver), (Packet.Obtained.made hmake).decode_wire,
    ⟨hroutine, c, hc, rfl⟩, rfl⟩

/-- Two nodes go on for ever about a change of the hydrophone that one of them gets in the name of
the other. -/
theorem length_exchange (limit : Nat) {σ τ : Type} [ConfigurationStore σ] [ConfigurationStore τ]
    {a : Node σ} {b : Node τ} {raw : Bytes} {request : Packet}
    (hdecode : Packet.decode raw = .ok request) (ha : a.Listens request.routing.receiver)
    (hb : b.Listens request.routing.sender) {update : HydrophoneUpdate}
    (hpayload : request.payload = .hydrophoneChange update) :
    (exchange limit a b raw).length = limit := by
  induction limit generalizing σ τ raw request with
  | zero => rfl
  | succ limit ih =>
    obtain ⟨reply, hreply, hrepeats, hrouting, hwire, hlistens, _⟩ :=
      receive_hydrophoneChange ha hdecode rfl hpayload
    -- the reply is such a frame again, with the nodes in each other's place
    have hb' : b.Listens reply.routing.receiver := by rwa [hrouting]
    have ha' : (a.receive raw).2.Listens reply.routing.sender := by rwa [hrouting]
    rw [exchange, hreply]
    exact congrArg (· + 1) (ih hwire hb' ha' (hrepeats.payload_eq.trans hpayload))

/-- A node at 5 and a node at 9, both as they start, get into such an exchange. -/
theorem exchange_endless :
    let node (address : Address) : Node MemoryStore := ⟨⟨⟨77, .charging⟩, ⟨⟨0⟩, ⟨0⟩⟩, 0, ⟨0⟩⟩,
      ⟨⟨{ Configuration.default with localAddress := address }, false⟩, .empty⟩, .standard,
      ⟨0, 0, 0⟩⟩
    let update : HydrophoneUpdate := ⟨none, none, none, some ⟨1700000000, 1, 2, 3⟩⟩
    let request := Packet.sealed .setHydrophone ⟨⟨9⟩, ⟨5⟩, 3⟩ (.hydrophoneChange update)
    let a := node ⟨5⟩
    let b := node ⟨9⟩
    start a.peripherals a.memory.store .standard = .ok a ∧
      start b.peripherals b.memory.store .standard = .ok b ∧
      (∃ reply, (a.receive request.wire).1 = some reply ∧
        (b.receive reply.wire).2.memory.cache ≠ b.memory.cache ∧
        ∃ next, (b.receive reply.wire).1 = some next ∧ next.opcode ≠ .errorReport) ∧
      ∀ limit, (exchange limit a b request.wire).length = limit := by
  intro node update request a b
  have hspells : Packet.Spells request.wire request update.encode :=
    Packet.spells_sealed rfl (by decide)
  have hdecode : Packet.decode request.wire = .ok request :=
    (Packet.Carried.of_spells hspells).decode_wire
  have ha : a.Listens ⟨5⟩ := ⟨rfl, _, rfl, rfl⟩
  have hb : b.Listens ⟨9⟩ := ⟨rfl, _, rfl, rfl⟩
  refine ⟨rfl, rfl, ?_, fun limit => length_exchange limit hdecode ha hb rfl⟩
  obtain ⟨reply, hreply, hrepeats, hrouting, hwire, _⟩ :=
    receive_hydrophoneChange ha hdecode rfl rfl
  have hreceiver : reply.routing.receiver = ⟨9⟩ := by
    rw [hrouting]
    rfl
  obtain ⟨next, hnext, hrepeats', _, _, _, hcache⟩ :=
    receive_hydrophoneChange hb hwire hreceiver hrepeats.payload_eq
  refine ⟨reply, hreply, ?_, next, hnext, ?_⟩
  · rw [hcache]
    nofun
  · rw [hrepeats'.opcode_eq, hrepeats.opcode_eq]
    nofun

end Node

end AcousticNode
