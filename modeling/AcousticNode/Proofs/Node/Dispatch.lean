import AcousticNode.Proofs.Node.Refusal
import AcousticNode.Proofs.Node.Reply
import AcousticNode.Proofs.Node.Run

/-!
# Dispatch

Which frames a node answers, to whom, and what kind of reply it gives.  The address that a reply
comes from is the one the node had when the frame came in, also where the frame changes it.

* `answer_dispatched` : the reply to a packet that a node answers;
* `exists_reply` : the reply of a node with all its routines;
* `receive_dispatched` : every frame in every state with a configuration, over either store.
-/

set_option autoImplicit false

namespace AcousticNode

/-- A dispatcher with the routines of a node, some of them taken out. -/
def Dispatcher.Trimmed (d : Dispatcher) : Prop :=
  ∀ op, d.routine? op = none ∨ d.routine? op = standard.routine? op

/-- The reply of a node with an address to a packet. -/
structure Dispatched (d : Dispatcher) (localAddress : Address) (request reply : Packet) :
    Prop where
  routing_eq : reply.routing = ⟨localAddress, request.routing.sender, 3⟩
  unknown_iff : reply = .errorReport reply.routing .invalidOpcode ↔
    d.routine? request.opcode = none
  refused_iff : reply = .errorReport reply.routing .invalidSender ↔
    (∃ r, d.routine? request.opcode = some r) ∧ request.IsForeignQuestion
  answered : (∃ r, d.routine? request.opcode = some r) → ¬ request.IsForeignQuestion →
    reply.opcode = request.opcode ∨ reply = .errorReport reply.routing .invalidPayload
  confidential : request.routing.sender ≠ .backend →
    (∀ records, reply.payload ≠ .configurationAnswer records) ∧
    ∀ update, reply.payload ≠ .hydrophoneAnswer update

/-! ## Kinds of replies -/

theorem Packet.errorReport_inj {routing : Routing} {code code' : ErrorCode} :
    errorReport routing code = errorReport routing code' ↔ code = code' := by
  refine ⟨fun h => ?_, fun h => by rw [h]⟩
  have hpayload : Payload.error code = .error code' := congrArg Packet.payload h
  cases hpayload
  rfl

/-- An error report tells nothing but the error. -/
theorem Packet.errorReport_confidential (routing : Routing) (code : ErrorCode) :
    (∀ records, (errorReport routing code).payload ≠ .configurationAnswer records) ∧
    ∀ update, (errorReport routing code).payload ≠ .hydrophoneAnswer update := by
  have hpayload : (errorReport routing code).payload = .error code := rfl
  rw [hpayload]
  constructor <;> intro _ h <;> cases h

theorem Routine.opcode_of_standard {op : Opcode} {r : Routine}
    (h : Dispatcher.standard.routine? op = some r) : r.opcode = op := by
  cases op <;> cases h <;> rfl

theorem Routine.Reply.ne_errorReport {r : Routine} {localAddress : Address}
    {request reply : Packet} (h : r.Reply localAddress request reply) (routing : Routing)
    (code : ErrorCode) : reply ≠ .errorReport routing code := by
  intro heq
  have hop := h.opcode_eq
  rw [heq] at hop
  cases r <;> cases hop

/-- The answers to questions that only the shore may ask are for the shore. -/
theorem Routine.Reply.confidential {r : Routine} {localAddress : Address} {request reply : Packet}
    (h : r.Reply localAddress request reply) (hsender : request.routing.sender ≠ .backend) :
    (∀ records, reply.payload ≠ .configurationAnswer records) ∧
    ∀ update, reply.payload ≠ .hydrophoneAnswer update := by
  have hdown : reply.routing.isUplink = false := by
    rw [h.routing_eq]
    exact decide_eq_false hsender
  have hfits := h.fits
  constructor <;> intro _ hpayload <;>
    rw [hpayload, Payload.fits, hdown, Bool.and_false] at hfits <;> cases hfits

theorem Dispatcher.reportOf_cases (e : Fault) :
    reportOf e = .invalidSender ∨ reportOf e = .invalidPayload := by
  cases e
  case forbiddenSender => exact .inl rfl
  all_goals exact .inr rfl

/-! ## Replies -/

variable {σ : Type} [ConfigurationStore σ]

namespace Dispatched

variable {d : Dispatcher} {localAddress : Address} {request : Packet}

theorem of_unknown {routing : Routing}
    (hrouting : routing = ⟨localAddress, request.routing.sender, 3⟩)
    (h : d.routine? request.opcode = none) :
    Dispatched d localAddress request (.errorReport routing .invalidOpcode) where
  routing_eq := hrouting
  unknown_iff := iff_of_true rfl h
  refused_iff := by
    refine iff_of_false (fun heq => nomatch Packet.errorReport_inj.mp heq) ?_
    rintro ⟨⟨r, hr⟩, _⟩
    rw [h] at hr
    cases hr
  answered := by
    rintro ⟨r, hr⟩ _
    rw [h] at hr
    cases hr
  confidential _ := Packet.errorReport_confidential _ _

theorem of_reply {r : Routine} {reply : Packet}
    (hrouting : request.routing.reply localAddress = ⟨localAddress, request.routing.sender, 3⟩)
    (hr : d.routine? request.opcode = some r) (hop : r.opcode = request.opcode)
    (h : r.Reply localAddress request reply) (hforeign : ¬ request.IsForeignQuestion) :
    Dispatched d localAddress request reply where
  routing_eq := h.routing_eq.trans hrouting
  unknown_iff := iff_of_false (h.ne_errorReport _ _) (by rw [hr]; nofun)
  refused_iff := iff_of_false (h.ne_errorReport _ _) fun hrefused => hforeign hrefused.2
  answered _ _ := .inl (h.opcode_eq.trans hop)
  confidential := h.confidential

theorem of_fault {r : Routine} {routing : Routing} {e : Fault}
    (hrouting : routing = ⟨localAddress, request.routing.sender, 3⟩)
    (hr : d.routine? request.opcode = some r)
    (h : Dispatcher.reportOf e = .invalidSender ↔ request.IsForeignQuestion) :
    Dispatched d localAddress request (.errorReport routing (Dispatcher.reportOf e)) where
  routing_eq := hrouting
  unknown_iff := by
    refine iff_of_false (fun heq => ?_) (by rw [hr]; nofun)
    have hcode := Packet.errorReport_inj.mp heq
    rcases Dispatcher.reportOf_cases e with hreport | hreport <;> rw [hreport] at hcode <;>
      cases hcode
  refused_iff := by
    refine Packet.errorReport_inj.trans (h.trans ?_)
    exact ⟨fun hforeign => ⟨⟨r, hr⟩, hforeign⟩, fun hrefused => hrefused.2⟩
  answered _ hforeign := by
    rcases Dispatcher.reportOf_cases e with hreport | hreport
    · exact absurd (h.mp hreport) hforeign
    · rw [hreport]
      exact .inr rfl
  confidential _ := Packet.errorReport_confidential _ _

end Dispatched

theorem Dispatcher.answer_dispatched [ImpartialStore σ] {d : Dispatcher} (hd : d.Trimmed)
    {raw : Bytes} {request : Packet} (hdecode : Packet.decode raw = .ok request) (ctx : Context)
    (mem : Memory σ)
    (haccepted : request.routing.receiver = ctx.localAddress ∨
      request.routing.receiver = .broadcast) :
    Dispatched d ctx.localAddress request (d.answer ctx mem request).1 := by
  have hrouting := Routing.reply_of_accepted haccepted
  rcases d.fst_answer_cases ctx mem request with ⟨hnone, heq⟩ | ⟨r, hr, hrun⟩
  · rw [heq]
    exact .of_unknown hrouting hnone
  · have hstandard : standard.routine? request.opcode = some r := by
      rcases hd request.opcode with hnone | hsame
      · rw [hnone] at hr
        cases hr
      · rw [← hsame, hr]
    have hrefuses := Routine.refuses_iff (Packet.fits_of_decode hdecode) hstandard ctx mem
    -- the sender is held against a request just when its routine fails for that reason
    rcases hrun with hok | ⟨e, he, heq⟩
    · refine .of_reply hrouting hr (Routine.opcode_of_standard hstandard)
        (Routine.reply_of_run hok) fun hforeign => ?_
      obtain ⟨e, he, _⟩ := hrefuses.mpr hforeign
      rw [hok] at he
      cases he
    · rw [heq]
      refine .of_fault hrouting hr ⟨fun hreport => hrefuses.mp ⟨e, he, hreport⟩, fun hforeign => ?_⟩
      obtain ⟨e', he', hreport⟩ := hrefuses.mpr hforeign
      rw [he] at he'
      cases he'
      exact hreport

/-! ## Nodes -/

namespace Node

/-- What a node with a configuration does with a frame. -/
structure Dispatches (n : Node σ) (c : Configuration) (raw : Bytes) : Prop where
  silent_iff : (n.receive raw).1 = none ↔
    (∃ e, Packet.decode raw = .error e) ∨
    ∃ request, Packet.decode raw = .ok request ∧
      (request.routing.receiver ≠ c.localAddress ∧ request.routing.receiver ≠ .broadcast ∨
        request.opcode = .errorReport)
  dispatched : ∀ reply, (n.receive raw).1 = some reply →
    ∃ request, Packet.decode raw = .ok request ∧
      Dispatched n.dispatcher c.localAddress request reply

theorem dispatches [ImpartialStore σ] {n : Node σ} (hd : n.dispatcher.Trimmed)
    {c : Configuration} (hc : n.configuration = .ok c) (raw : Bytes) : n.Dispatches c raw := by
  rcases n.receive_cases raw with ⟨c', request, htakes, heq⟩ | ⟨hnot, heq⟩
  · obtain rfl : c' = c := Except.ok.inj (htakes.configuration_eq.symm.trans hc)
    have hdecode := htakes.decode_eq
    obtain ⟨haccepted, hop⟩ := (accepts_iff hdecode _).mp htakes.accepts_eq
    constructor
    · rw [heq]
      refine iff_of_false nofun ?_
      rintro (⟨e, he⟩ | ⟨request', hrequest', hsilent⟩)
      · rw [hdecode] at he
        cases he
      · obtain rfl : request' = request := Except.ok.inj (hrequest'.symm.trans hdecode)
        rcases hsilent with ⟨hlocal, hall⟩ | hreport
        · exact haccepted.elim hlocal hall
        · exact hop hreport
    · rw [heq]
      intro reply hreply
      cases hreply
      exact ⟨request, hdecode,
        Dispatcher.answer_dispatched hd hdecode (n.context _) n.memory haccepted⟩
  · constructor
    · rw [heq]
      refine iff_of_true rfl ?_
      cases hdecode : Packet.decode raw with
      | error e => exact .inl ⟨e, rfl⟩
      | ok request =>
        refine .inr ⟨request, rfl, Classical.byContradiction fun hloud => ?_⟩
        obtain ⟨hhere, hop⟩ := not_or.mp hloud
        have haccepted : request.routing.receiver = c.localAddress ∨
            request.routing.receiver = .broadcast :=
          Classical.byContradiction fun helse => hhere (not_or.mp helse)
        exact hnot c request ⟨hdecode, hc, (accepts_iff hdecode _).mpr ⟨haccepted, hop⟩⟩
    · rw [heq]
      intro reply hreply
      cases hreply

/-- A node with all its routines replies to a packet for itself or for all what the routine of the
operation code says, or that the request is refused if the routine fails, unless the question is
for others to ask. -/
theorem exists_reply [ImpartialStore σ] {n : Node σ} (hd : n.dispatcher = .standard)
    {c : Configuration} (hc : n.configuration = .ok c) {raw : Bytes} {request : Packet}
    (hdecode : Packet.decode raw = .ok request)
    (haccepted : request.routing.receiver = c.localAddress ∨
      request.routing.receiver = .broadcast)
    {r : Routine} (hr : Dispatcher.standard.routine? request.opcode = some r)
    (hforeign : ¬ request.IsForeignQuestion) :
    ∃ reply, (n.receive raw).1 = some reply ∧
      reply.routing = ⟨c.localAddress, request.routing.sender, 3⟩ ∧
      ((r.run (n.context c.localAddress) n.memory (some request)).1 = .ok reply ∨
        (∃ e, (r.run (n.context c.localAddress) n.memory (some request)).1 = .error e) ∧
        reply = .errorReport reply.routing .invalidPayload) := by
  have hop : request.opcode ≠ .errorReport := by
    intro hop
    rw [hop] at hr
    cases hr
  have htakes : n.Takes raw c request := ⟨hdecode, hc, (accepts_iff hdecode _).mpr ⟨haccepted, hop⟩⟩
  have hdispatched := Dispatcher.answer_dispatched (d := .standard) (fun _ => .inr rfl)
    hdecode (n.context c.localAddress) n.memory haccepted
  refine ⟨_, by rw [receive_of_takes htakes, hd], hdispatched.routing_eq, ?_⟩
  rcases Dispatcher.standard.fst_answer_cases (n.context c.localAddress) n.memory request with
    ⟨hnone, _⟩ | ⟨r', hr', hok | ⟨e, he, heq⟩⟩
  · rw [hr] at hnone
    cases hnone
  · obtain rfl : r' = r := Option.some.inj (hr'.symm.trans hr)
    exact .inl hok
  · obtain rfl : r' = r := Option.some.inj (hr'.symm.trans hr)
    refine .inr ⟨⟨e, he⟩, (hdispatched.answered ⟨r', hr⟩ hforeign).resolve_left fun hsame => ?_⟩
    rw [heq] at hsame
    exact hop hsame.symm

/-- **Dispatch is complete.**  A node with any of its routines, that has a configuration when a
frame comes in, is silent for octets that are no packet, for packets to others and for error
reports, and for nothing else.  Whatever else comes is answered from the node's address to the
sender, and what is wrong with it decides on the kind of the reply. -/
theorem receive_dispatched (raw : Bytes) (c : Configuration) :
    (∀ n : Node MemoryStore, n.dispatcher.Trimmed → n.configuration = .ok c →
      n.Dispatches c raw) ∧
    (∀ n : Node FileStore, n.dispatcher.Trimmed → n.configuration = .ok c →
      n.Dispatches c raw) :=
  ⟨fun _ hd hc => dispatches hd hc raw, fun _ hd hc => dispatches hd hc raw⟩

/-- A node without full status reports tells a peer that asks for its settings, by a frame to all,
that this is not for peers to ask. -/
theorem receive_dispatched_peer :
    let request := Packet.sealed .getConfiguration (.toAll ⟨1⟩) (.configurationQuery [.network])
    let c := { Configuration.default with localAddress := ⟨5⟩ }
    let n : Node MemoryStore := ⟨⟨⟨77, .charging⟩, ⟨⟨0⟩, ⟨0⟩⟩, 0, ⟨0⟩⟩, ⟨⟨c, true⟩, .empty⟩,
      Dispatcher.standard.assign .completeStatus none, ⟨0, 0, 0⟩⟩
    n.dispatcher.Trimmed ∧ n.configuration = .ok c ∧
      ∃ reply, (n.receive request.wire).1 = some reply ∧
        reply = .errorReport ⟨⟨5⟩, ⟨1⟩, 3⟩ .invalidSender := by
  intro request c n
  have htrimmed : n.dispatcher.Trimmed := by
    intro op
    cases op
    case completeStatus => exact .inl rfl
    all_goals exact .inr rfl
  have hc : n.configuration = .ok c := rfl
  have hdispatches := (receive_dispatched request.wire c).1 n htrimmed hc
  have hspells : Packet.Spells request.wire request [ModuleCode.network.byte] :=
    Packet.spells_sealed rfl (by decide)
  have hdecode : Packet.decode request.wire = .ok request :=
    (Packet.Carried.of_spells hspells).decode_wire
  cases hreply : (n.receive request.wire).1 with
  | none =>
    rcases hdispatches.silent_iff.mp hreply with ⟨e, he⟩ | ⟨request', hrequest', hsilent⟩
    · rw [hdecode] at he
      cases he
    · obtain rfl : request' = request := Except.ok.inj (hrequest'.symm.trans hdecode)
      rcases hsilent with ⟨_, hall⟩ | hreport
      · exact absurd rfl hall
      · cases hreport
  | some reply =>
    obtain ⟨request', hrequest', hdispatched⟩ := hdispatches.dispatched reply hreply
    obtain rfl : request' = request := Except.ok.inj (hrequest'.symm.trans hdecode)
    have hrefused := hdispatched.refused_iff.mpr ⟨⟨_, rfl⟩, .inl rfl, nofun, nofun⟩
    rw [hdispatched.routing_eq] at hrefused
    exact ⟨htrimmed, hc, reply, rfl, hrefused⟩

end Node

end AcousticNode
