import AcousticNode.Node.Dispatcher
import AcousticNode.Proofs.Packet.RoundTrip

/-!
# What routines reply

A routine that succeeds makes one packet, with the operation code that the routine serves and with
the routing back to the sender.  The packet carries an answer, of which no routine takes another;
or it repeats the change that the request asked for.

* `reply_of_run` : the replies of every routine;
* `run_eq_error` : an answer is no request;
* `fst_answer_cases` : the replies of a dispatcher.
-/

set_option autoImplicit false

namespace AcousticNode

open Outcome

variable {σ : Type} [ConfigurationStore σ]

/-- What a payload is for. -/
inductive Payload.Purpose where
  | question
  | answer
  /-- A change that is asked for, or one that is repeated. -/
  | change
  | refusal
  deriving DecidableEq, Repr

def Payload.purpose : Payload → Purpose
  | empty => .question
  | error _ => .refusal
  | basicReport _ => .answer
  | completeReport _ => .answer
  | configurationQuery _ => .question
  | configurationChange _ => .change
  | configurationAnswer _ => .answer
  | hydrophoneQuery _ => .question
  | hydrophoneChange _ => .change
  | hydrophoneAnswer _ => .answer

/-- An answer to what was sent to a node or to all comes from the node. -/
theorem Routing.reply_of_accepted {routing : Routing} {localAddress : Address}
    (h : routing.receiver = localAddress ∨ routing.receiver = .broadcast) :
    routing.reply localAddress = ⟨localAddress, routing.sender, 3⟩ := by
  rw [reply]
  split
  · rfl
  · rename_i hother
    rcases h with h | h
    · rw [h]
      rfl
    · exact absurd (decide_eq_true h) hother

namespace Routine

/-- The operation code that a routine serves. -/
def opcode : Routine → Opcode
  | basicStatus => .basicStatus
  | completeStatus => .completeStatus
  | changeConfiguration => .setConfiguration
  | reportConfiguration => .getConfiguration
  | storeHydrophone => .setHydrophone
  | fetchHydrophone => .getHydrophone

/-- A reply of a routine. -/
structure Reply (r : Routine) (localAddress : Address) (request reply : Packet) : Prop where
  made : Packet.make r.opcode (request.routing.reply localAddress) reply.payload = .ok reply
  purpose : request.payload.purpose = .question ∧ reply.payload.purpose = .answer ∨
    request.payload.purpose = .change ∧ reply.payload = request.payload

section

variable {r : Routine} {localAddress : Address} {request reply : Packet}

theorem Reply.of_answer {payload : Payload}
    (h : Packet.make r.opcode (request.routing.reply localAddress) payload = .ok reply)
    (hquestion : request.payload.purpose = .question) (hanswer : payload.purpose = .answer) :
    r.Reply localAddress request reply := by
  have hmade := h
  obtain ⟨_, _, rfl⟩ := Packet.make_eq_ok_iff.mp h
  exact ⟨hmade, .inl ⟨hquestion, hanswer⟩⟩

theorem Reply.of_change
    (h : Packet.make r.opcode (request.routing.reply localAddress) request.payload = .ok reply)
    (hchange : request.payload.purpose = .change) : r.Reply localAddress request reply := by
  have hmade := h
  obtain ⟨_, _, rfl⟩ := Packet.make_eq_ok_iff.mp h
  exact ⟨hmade, .inr ⟨hchange, rfl⟩⟩

theorem Reply.fits (h : r.Reply localAddress request reply) :
    reply.payload.fits r.opcode reply.routing = true := by
  obtain ⟨hfits, _, hreply⟩ := Packet.make_eq_ok_iff.mp h.made
  rw [hreply]
  exact hfits

theorem Reply.opcode_eq (h : r.Reply localAddress request reply) : reply.opcode = r.opcode := by
  obtain ⟨_, _, hreply⟩ := Packet.make_eq_ok_iff.mp h.made
  rw [hreply]
  rfl

theorem Reply.routing_eq (h : r.Reply localAddress request reply) :
    reply.routing = request.routing.reply localAddress := by
  obtain ⟨_, _, hreply⟩ := Packet.make_eq_ok_iff.mp h.made
  rw [hreply]
  rfl

end

/-! ## The routines one by one -/

variable {ctx : Context} {mem : Memory σ} {request reply : Packet}

theorem payload_of_requireEmpty {u : Unit} (h : requireEmpty (some request) = .ok u) :
    request.payload = .empty := by
  simp only [requireEmpty] at h
  split at h
  · assumption
  · cases h

theorem reply_of_answerBasicStatus (h : answerBasicStatus ctx (some request) = .ok reply) :
    basicStatus.Reply ctx.localAddress request reply := by
  obtain ⟨_, hempty, h⟩ := bind_eq_ok.mp h
  exact .of_answer h (by rw [payload_of_requireEmpty hempty]; rfl) rfl

theorem reply_of_answerCompleteStatus {cache : HydrophoneUpdate}
    (h : answerCompleteStatus ctx cache (some request) = .ok reply) :
    completeStatus.Reply ctx.localAddress request reply := by
  obtain ⟨_, hempty, h⟩ := bind_eq_ok.mp h
  obtain ⟨_, _, h⟩ := bind_eq_ok.mp h
  exact .of_answer h (by rw [payload_of_requireEmpty hempty]; rfl) rfl

theorem reply_of_answerChange (h : (answerChange ctx mem request).1 = .ok reply) :
    changeConfiguration.Reply ctx.localAddress request reply := by
  unfold answerChange at h
  split at h
  · rename_i records hpayload
    split at h
    · cases h
    · split at h
      · cases h
      · rw [← hpayload] at h
        exact .of_change h (by rw [hpayload]; rfl)
  · cases h

theorem reply_of_answerQuery (h : answerQuery ctx mem request = .ok reply) :
    reportConfiguration.Reply ctx.localAddress request reply := by
  unfold answerQuery at h
  split at h
  · rename_i codes hpayload
    obtain ⟨_, _, h⟩ := bind_eq_ok.mp h
    obtain ⟨_, _, h⟩ := bind_eq_ok.mp h
    obtain ⟨_, _, h⟩ := bind_eq_ok.mp h
    obtain ⟨_, _, h⟩ := bind_eq_ok.mp h
    exact .of_answer h (by rw [hpayload]; rfl) rfl
  · cases h

omit [ConfigurationStore σ] in
theorem reply_of_answerStore (h : (answerStore ctx mem request).1 = .ok reply) :
    storeHydrophone.Reply ctx.localAddress request reply := by
  unfold answerStore at h
  split at h
  · rename_i update hpayload
    rw [← hpayload] at h
    exact .of_change h (by rw [hpayload]; rfl)
  · cases h

theorem reply_of_answerFetch {cache : HydrophoneUpdate}
    (h : answerFetch ctx cache request = .ok reply) :
    fetchHydrophone.Reply ctx.localAddress request reply := by
  unfold answerFetch at h
  split at h
  · rename_i mask hpayload
    obtain ⟨_, _, h⟩ := bind_eq_ok.mp h
    obtain ⟨_, _, h⟩ := bind_eq_ok.mp h
    exact .of_answer h (by rw [hpayload]; rfl) rfl
  · cases h

theorem reply_of_run {r : Routine} (h : (r.run ctx mem (some request)).1 = .ok reply) :
    r.Reply ctx.localAddress request reply := by
  cases r with
  | basicStatus => exact reply_of_answerBasicStatus h
  | completeStatus => exact reply_of_answerCompleteStatus h
  | changeConfiguration => exact reply_of_answerChange h
  | reportConfiguration => exact reply_of_answerQuery h
  | storeHydrophone => exact reply_of_answerStore h
  | fetchHydrophone => exact reply_of_answerFetch h

/-- Neither an answer nor a refusal is a request. -/
theorem run_eq_error (r : Routine) (ctx : Context) (mem : Memory σ)
    (hquestion : request.payload.purpose ≠ .question)
    (hchange : request.payload.purpose ≠ .change) :
    ∃ e, (r.run ctx mem (some request)).1 = .error e := by
  cases hrun : (r.run ctx mem (some request)).1 with
  | error e => exact ⟨e, rfl⟩
  | ok reply =>
    rcases (reply_of_run hrun).purpose with ⟨h, _⟩ | ⟨h, _⟩
    · exact absurd h hquestion
    · exact absurd h hchange

end Routine

/-! ## Dispatchers -/

theorem Dispatcher.fst_answer_cases (d : Dispatcher) (ctx : Context) (mem : Memory σ)
    (request : Packet) :
    (d.routine? request.opcode = none ∧ (d.answer ctx mem request).1 =
      .errorReport (request.routing.reply ctx.localAddress) .invalidOpcode) ∨
    ∃ r, d.routine? request.opcode = some r ∧
      ((r.run ctx mem (some request)).1 = .ok (d.answer ctx mem request).1 ∨
      ∃ e, (r.run ctx mem (some request)).1 = .error e ∧ (d.answer ctx mem request).1 =
        .errorReport (request.routing.reply ctx.localAddress) (reportOf e)) := by
  unfold answer
  cases d.routine? request.opcode with
  | none => exact .inl ⟨rfl, rfl⟩
  | some r =>
    refine .inr ⟨r, rfl, ?_⟩
    simp only
    split <;> rename_i hrun <;> rw [hrun]
    · exact .inl rfl
    · exact .inr ⟨_, rfl, rfl⟩

theorem Dispatcher.routing_answer (d : Dispatcher) (ctx : Context) (mem : Memory σ)
    (request : Packet) :
    (d.answer ctx mem request).1.routing = request.routing.reply ctx.localAddress := by
  rcases d.fst_answer_cases ctx mem request with ⟨_, heq⟩ | ⟨r, _, hok | ⟨e, _, heq⟩⟩
  · rw [heq]
    rfl
  · exact (Routine.reply_of_run hok).routing_eq
  · rw [heq]
    rfl

end AcousticNode
