import Mathlib.Data.List.Induction
import AcousticNode.Proofs.HydrophoneCache
import AcousticNode.Proofs.Node.Dispatch
import AcousticNode.Proofs.Node.ValidConfiguration

/-!
# What a node remembers of the hydrophone

A node is told aspects of the hydrophone by frames that carry a change of them, to the address that
the node has when the frame comes in or to all.  Of every aspect it remembers the value that it was
told last, whatever else has happened, and so answers the shore and makes its reports.

* `foldl_store` : updates that are stored one after another leave what was told last;
* `cache_run` : the cache holds what was told last of every aspect;
* `run_recollects` : every fetch and every request for a full status, after every run.
-/

set_option autoImplicit false

namespace AcousticNode

open Outcome

/-! ## What was told last -/

section Latest

variable {α : Type} (aspect : HydrophoneUpdate → Option α)

/-- The value of an aspect in the last update that carries it. -/
def latest (told : List HydrophoneUpdate) : Option α := told.reverse.findSome? aspect

theorem isSome_latest_iff {told : List HydrophoneUpdate} :
    (latest aspect told).isSome = true ↔ ∃ update ∈ told, (aspect update).isSome = true := by
  simp [latest, List.findSome?_isSome_iff]

theorem latest_append_singleton (told : List HydrophoneUpdate) (update : HydrophoneUpdate) :
    latest aspect (told ++ [update]) = (aspect update).or (latest aspect told) := by
  rw [latest, List.reverse_append, List.findSome?_append]
  cases h : aspect update <;> simp [h, latest]

end Latest

namespace HydrophoneUpdate

/-- Every aspect as it was told last. -/
def recalled (told : List HydrophoneUpdate) : HydrophoneUpdate where
  status := latest (·.status) told
  logging := latest (·.logging) told
  streaming := latest (·.streaming) told
  stats := latest (·.stats) told

theorem holds_recalled_iff {told : List HydrophoneUpdate} {a : Aspect} :
    (recalled told).holds a = true ↔ ∃ update ∈ told, update.holds a = true := by
  cases a <;> exact isSome_latest_iff _

/-- Updates that are stored one after another leave what was told last. -/
theorem foldl_store (told : List HydrophoneUpdate) : told.foldl store empty = recalled told := by
  induction told using List.reverseRecOn with
  | nil => rfl
  | append_singleton told update ih =>
    rw [List.foldl_append, ih]
    simp only [List.foldl_cons, List.foldl_nil, store, recalled, latest_append_singleton]

/-- Records of 34, 19, 18 and 11 octets. -/
theorem size_le (u : HydrophoneUpdate) : u.size ≤ 90 := by
  have hstatus (s) : (Module.hydrophoneStatus s).size = 36 :=
    Module.size_of_fixedLength (n := 34) rfl
  have hlogging (l) : (Module.hydrophoneLogging l).size = 21 :=
    Module.size_of_fixedLength (n := 19) rfl
  have hstreaming (s) : (Module.hydrophoneStreaming s).size = 20 :=
    Module.size_of_fixedLength (n := 18) rfl
  have hstats (s) : (Module.hydrophoneStats s).size = 13 :=
    Module.size_of_fixedLength (n := 11) rfl
  obtain ⟨status, logging, streaming, stats⟩ := u
  cases status <;> cases logging <;> cases streaming <;> cases stats <;>
    simp [size, modules, hstatus, hlogging, hstreaming, hstats]

end HydrophoneUpdate

/-! ## What a node is told -/

variable {σ : Type} [ConfigurationStore σ]

/-- The frames that come in with an event. -/
def Event.frames : Event → List Bytes
  | .frame raw => [raw]
  | .drain link _ => link.inbound.items
  | .tick _ => []

namespace Node

/-- The update that a frame tells a node. -/
def told? (n : Node σ) (raw : Bytes) : Option HydrophoneUpdate :=
  match Packet.decode raw, n.configuration with
  | .ok p, .ok c =>
    if p.routing.receiver = c.localAddress ∨ p.routing.receiver = .broadcast then
      match p.payload with
      | .hydrophoneChange update => some update
      | _ => none
    else none
  | _, _ => none

/-- The updates that frames tell a node, one after another. -/
def toldAll (n : Node σ) : List Bytes → List HydrophoneUpdate
  | [] => []
  | raw :: raws => (n.told? raw).toList ++ toldAll (n.receive raw).2 raws

/-- The updates that a node is told in a run. -/
def told (n : Node σ) : List Event → List HydrophoneUpdate
  | [] => []
  | e :: events => n.toldAll e.frames ++ told (n.after e) events

/-- A frame tells a node something if it is a change of the hydrophone that the node accepts. -/
theorem told?_eq_some_iff {n : Node σ} {raw : Bytes} {update : HydrophoneUpdate} :
    n.told? raw = some update ↔ ∃ c request, n.Takes raw c request ∧
      request.opcode = .setHydrophone ∧ request.payload = .hydrophoneChange update := by
  unfold told?
  constructor
  · intro h
    split at h
    · rename_i request c hdecode hc
      split at h
      · rename_i hreceiver
        split at h
        · rename_i update' hpayload
          cases h
          have hop : request.opcode = .setHydrophone := by
            simpa [hpayload, Payload.fits] using Packet.fits_of_decode hdecode
          have haccepts := (accepts_iff hdecode c.localAddress).mpr ⟨hreceiver, by rw [hop]; decide⟩
          exact ⟨c, request, ⟨hdecode, hc, haccepts⟩, hop, hpayload⟩
        · cases h
      · cases h
    · cases h
  · rintro ⟨c, request, ⟨hdecode, hc, haccepts⟩, _, hpayload⟩
    have hreceiver := ((accepts_iff hdecode _).mp haccepts).1
    simp only [hdecode, hc, if_pos hreceiver, hpayload]

/-- A packet that is no change of the hydrophone leaves the cache as it is. -/
theorem cache_written_of_ne (d : Dispatcher) (mem : Memory σ) {request : Packet}
    (h : ∀ update, request.payload ≠ .hydrophoneChange update) :
    (d.written mem request).cache = mem.cache := by
  unfold Dispatcher.written
  split
  · rfl
  · rename_i r _
    rcases r.written_cases σ request.payload with ⟨rfl, records, hpayload⟩ | ⟨_, update, hpayload⟩
      | hsame
    · rw [hpayload, Routine.written]
      split <;> rfl
    · exact absurd hpayload (h update)
    · rw [hsame]

theorem cache_receive {n : Node σ} (hd : n.dispatcher = .standard) (raw : Bytes) :
    (n.receive raw).2.memory.cache =
      (n.told? raw).toList.foldl HydrophoneUpdate.store n.memory.cache := by
  cases htold : n.told? raw with
  | some update =>
    obtain ⟨c, request, htakes, hop, hpayload⟩ := told?_eq_some_iff.mp htold
    have hr : Dispatcher.standard.routine? request.opcode = some .storeHydrophone := by
      rw [hop]
      rfl
    rw [receive_of_takes htakes, hd]
    simp only [Dispatcher.written, hr, hpayload]
    rfl
  | none =>
    rcases n.receive_cases raw with ⟨c, request, htakes, heq⟩ | ⟨_, heq⟩
    · rw [heq]
      refine cache_written_of_ne n.dispatcher n.memory fun update hpayload => ?_
      have hop : request.opcode = .setHydrophone := by
        simpa [hpayload, Payload.fits] using Packet.fits_of_decode htakes.decode_eq
      have hsome := told?_eq_some_iff.mpr ⟨c, request, htakes, hop, hpayload⟩
      rw [htold] at hsome
      cases hsome
    · rw [heq]
      rfl

theorem cache_receiveAll {n : Node σ} (hd : n.dispatcher = .standard) (raws : List Bytes) :
    (n.receiveAll raws).2.memory.cache =
      (n.toldAll raws).foldl HydrophoneUpdate.store n.memory.cache := by
  induction raws generalizing n with
  | nil => rfl
  | cons raw raws ih =>
    have hd' : (n.receive raw).2.dispatcher = .standard := by
      obtain ⟨memory, h⟩ := n.exists_memory_receive raw
      rw [h, hd]
    rw [toldAll, List.foldl_append, ← cache_receive hd]
    exact ih hd'

theorem cache_after {n : Node σ} (hd : n.dispatcher = .standard) (e : Event) :
    (n.after e).memory.cache =
      (n.toldAll e.frames).foldl HydrophoneUpdate.store n.memory.cache := by
  cases e with
  | frame raw => exact cache_receiveAll hd [raw]
  | drain link refused => exact cache_receiveAll hd link.inbound.items
  | tick minute =>
    rw [after, memory_tick]
    rfl

theorem cache_run {n : Node σ} (hd : n.dispatcher = .standard) (events : List Event) :
    (n.run events).memory.cache =
      (n.told events).foldl HydrophoneUpdate.store n.memory.cache := by
  induction events generalizing n with
  | nil => rfl
  | cons e events ih =>
    rw [told, List.foldl_append, ← cache_after hd]
    exact ih ((n.after_equipped e).dispatcher_eq.trans hd)

theorem cache_of_start {peripherals : Peripherals} {store : σ} {d : Dispatcher} {n : Node σ}
    (h : start peripherals store d = .ok n) : n.memory.cache = .empty := by
  obtain ⟨c, first, _, _, _, rfl⟩ := start_eq_ok_iff.mp h
  rfl

/-- After a run the cache is what the node was told last. -/
theorem cache_run_of_start {peripherals : Peripherals} {store : σ} {n : Node σ}
    (h : start peripherals store .standard = .ok n) (events : List Event) :
    (n.run events).memory.cache = .recalled (n.told events) := by
  rw [cache_run (equipment_of_start h).2, cache_of_start h, HydrophoneUpdate.foldl_store]

end Node

/-! ## What is made of it -/

/-- A packet of a kind that is received as it was sent, with a payload. -/
structure Packet.Conveys (p : Packet) (op : Opcode) (payload : Payload) : Prop where
  decode_wire : decode p.wire = .ok p
  opcode_eq : p.opcode = op
  payload_eq : p.payload = payload

theorem Packet.conveys_of_make {op : Opcode} {routing : Routing} {payload : Payload} {p : Packet}
    (h : make op routing payload = .ok p) : p.Conveys op payload := by
  obtain ⟨_, _, rfl⟩ := make_eq_ok_iff.mp h
  exact ⟨(Obtained.made h).decode_wire, rfl, rfl⟩

/-- Every selection of aspects fits an answer to the shore. -/
theorem Packet.make_hydrophoneAnswer {routing : Routing} (hup : routing.isUplink = true)
    (u : HydrophoneUpdate) : make .getHydrophone routing (.hydrophoneAnswer u) =
      .ok (sealed .getHydrophone routing (.hydrophoneAnswer u)) := by
  refine make_eq_ok_iff.mpr ⟨?_, ?_, rfl⟩
  · rw [Payload.fits, hup]
    rfl
  · exact Nat.le_trans (Nat.add_le_add_left u.size_le 6) (by decide)

theorem Packet.make_completeReport (routing : Routing) (report : CompleteReport) :
    make .completeStatus routing (.completeReport report) =
      .ok (sealed .completeStatus routing (.completeReport report)) := by
  refine make_eq_ok_iff.mpr ⟨rfl, ?_, rfl⟩
  rw [Payload.size]
  decide

namespace Routine

variable (ctx : Context) (cache : HydrophoneUpdate) {request : Packet}

theorem answerFetch_eq_ok_iff {mask : AspectMask}
    (hpayload : request.payload = .hydrophoneQuery mask)
    (hsender : request.routing.sender = .backend) (reply : Packet) :
    answerFetch ctx cache request = .ok reply ↔
      (∀ a, mask.selects a = true → cache.holds a = true) ∧
      Packet.make .getHydrophone (request.routing.reply ctx.localAddress)
        (.hydrophoneAnswer (cache.only mask)) = .ok reply := by
  have hbackend : requireBackend request = .ok () := if_pos (decide_eq_true hsender)
  unfold answerFetch
  rw [hpayload]
  simp only [bind_eq_ok, hbackend, HydrophoneUpdate.select_eq_ok_iff, Context.answerRouting]
  constructor
  · rintro ⟨_, _, _, ⟨hheld, rfl⟩, hreply⟩
    exact ⟨hheld, hreply⟩
  · rintro ⟨hheld, hreply⟩
    exact ⟨(), trivial, _, ⟨hheld, rfl⟩, hreply⟩

theorem requireEmpty_some (h : request.payload = .empty) : requireEmpty (some request) = .ok () := by
  simp only [requireEmpty, h]

theorem answerCompleteStatus_eq_ok_iff {request : Option Packet}
    (hempty : requireEmpty request = .ok ()) (reply : Packet) :
    answerCompleteStatus ctx cache request = .ok reply ↔ ∃ h : Hydrophone,
      cache = h.update ∧ Packet.make .completeStatus (ctx.answerRouting request)
        (.completeReport ⟨ctx.peripherals.battery, .unknown, ctx.peripherals.location, .unknown,
          h⟩) = .ok reply := by
  unfold answerCompleteStatus
  simp only [bind_eq_ok, hempty, HydrophoneUpdate.complete_eq_ok_iff]
  constructor
  · rintro ⟨_, _, h, hknown, hreply⟩
    exact ⟨h, hknown, hreply⟩
  · rintro ⟨h, hknown, hreply⟩
    exact ⟨(), trivial, h, hknown, hreply⟩

end Routine

/-! ## Nodes -/

/-- What a node that was told updates replies when the shore fetches the aspects of a mask. -/
structure Fetched (localAddress : Address) (told : List HydrophoneUpdate) (mask : AspectMask)
    (reply : Packet) : Prop where
  routing_eq : reply.routing = ⟨localAddress, .backend, 3⟩
  answered : (∀ a, mask.low.selects a = true → ∃ update ∈ told, update.holds a = true) →
    reply.Conveys .getHydrophone
      (.hydrophoneAnswer ((HydrophoneUpdate.recalled told).only mask.low))
  refused_iff : reply = .errorReport reply.routing .invalidPayload ↔
    ∃ a, mask.low.selects a = true ∧ ∀ update ∈ told, update.holds a = false

/-- What a node that was told updates replies to a request for a full status. -/
structure Reported (ctx : Context) (told : List HydrophoneUpdate) (sender : Address)
    (reply : Packet) : Prop where
  routing_eq : reply.routing = ⟨ctx.localAddress, sender, 3⟩
  answered : (∀ a : Aspect, ∃ update ∈ told, update.holds a = true) →
    ∃ h : Hydrophone, HydrophoneUpdate.recalled told = h.update ∧
      reply.Conveys .completeStatus (.completeReport
        ⟨ctx.peripherals.battery, .unknown, ctx.peripherals.location, .unknown, h⟩)
  refused_iff : reply = .errorReport reply.routing .invalidPayload ↔
    ∃ a : Aspect, ∀ update ∈ told, update.holds a = false

namespace Node

/-- A node recollects what it was told of the hydrophone. -/
structure Recollects (n : Node σ) (peripherals : Peripherals) (told : List HydrophoneUpdate)
    (c : Configuration) : Prop where
  configuration_eq : n.configuration = .ok c
  fetched : ∀ raw request mask, Packet.decode raw = .ok request →
    request.payload = .hydrophoneQuery mask → request.routing.sender = .backend →
    request.routing.receiver = c.localAddress ∨ request.routing.receiver = .broadcast →
    ∃ reply, (n.receive raw).1 = some reply ∧ Fetched c.localAddress told mask reply
  reported : ∀ raw request, Packet.decode raw = .ok request →
    request.opcode = .completeStatus → request.payload = .empty →
    request.routing.receiver = c.localAddress ∨ request.routing.receiver = .broadcast →
    ∃ reply, (n.receive raw).1 = some reply ∧
      Reported ⟨c.localAddress, n.agenda.mode, peripherals⟩ told request.routing.sender reply

/-- A routine that succeeds under a condition and under no other decides by it between an answer
and a refusal. -/
theorem answered_or_refused {x : Except Fault Packet} {reply : Packet}
    (hreply : x = .ok reply ∨ (∃ e, x = .error e) ∧
      reply = .errorReport reply.routing .invalidPayload)
    {P : Prop} {Q : Packet → Prop} (hok : ∀ p, x = .ok p → P ∧ Q p)
    (hdone : P → ∃ p, x = .ok p) (hop : ∀ p, Q p → p.opcode ≠ .errorReport) :
    (P → Q reply) ∧ (reply = .errorReport reply.routing .invalidPayload ↔ ¬ P) := by
  rcases hreply with hx | ⟨⟨e, he⟩, hrefused⟩
  · obtain ⟨hP, hQ⟩ := hok reply hx
    have hne : reply ≠ .errorReport reply.routing .invalidPayload :=
      fun heq => hop reply hQ (congrArg Packet.opcode heq)
    exact ⟨fun _ => hQ, iff_of_false hne (not_not_intro hP)⟩
  · have hnot : ¬ P := by
      intro hP
      obtain ⟨p, hp⟩ := hdone hP
      cases he.symm.trans hp
    exact ⟨fun hP => absurd hP hnot, iff_of_true hrefused hnot⟩

variable {n : Node σ} {c : Configuration} {updates : List HydrophoneUpdate} {raw : Bytes}
  {request : Packet}

theorem fetched [ImpartialStore σ] (hd : n.dispatcher = .standard) (hc : n.configuration = .ok c)
    (hcache : n.memory.cache = .recalled updates) (hdecode : Packet.decode raw = .ok request)
    {mask : AspectMask} (hpayload : request.payload = .hydrophoneQuery mask)
    (hsender : request.routing.sender = .backend)
    (hreceiver : request.routing.receiver = c.localAddress ∨
      request.routing.receiver = .broadcast) :
    ∃ reply, (n.receive raw).1 = some reply ∧ Fetched c.localAddress updates mask reply := by
  obtain ⟨hop, _⟩ : request.opcode = .getHydrophone ∧ request.routing.isUplink = false := by
    simpa [hpayload, Payload.fits] using Packet.fits_of_decode hdecode
  have hr : Dispatcher.standard.routine? request.opcode = some .fetchHydrophone := by
    rw [hop]
    rfl
  obtain ⟨reply, hreply, hrouting, hrun⟩ :=
    exists_reply hd hc hdecode hreceiver hr fun hforeign => hforeign.sender_ne hsender
  have hup : (request.routing.reply c.localAddress).isUplink = true := decide_eq_true hsender
  have hmade := Packet.make_hydrophoneAnswer hup (n.memory.cache.only mask)
  have hheld : (∀ a, mask.selects a = true → n.memory.cache.holds a = true) ↔
      ∀ a, mask.low.selects a = true → ∃ update ∈ updates, update.holds a = true := by
    simp only [hcache, HydrophoneUpdate.holds_recalled_iff, AspectMask.selects_low]
  have hanswer := Routine.answerFetch_eq_ok_iff (n.context c.localAddress) n.memory.cache hpayload
    hsender
  obtain ⟨hanswered, hrefused⟩ := answered_or_refused hrun
    (fun p hp => (hanswer p).mp hp) (fun hknown => ⟨_, (hanswer _).mpr ⟨hknown, hmade⟩⟩)
    (fun p hp => by rw [(Packet.conveys_of_make hp).opcode_eq]; decide)
  rw [hsender] at hrouting
  rw [hheld] at hanswered hrefused
  refine ⟨reply, hreply, hrouting, fun hknown => ?_, ?_⟩
  · rw [HydrophoneUpdate.only_low, ← hcache]
    exact Packet.conveys_of_make (hanswered hknown)
  · rw [hrefused]
    push Not
    simp only [ne_eq, Bool.not_eq_true]

theorem reported [ImpartialStore σ] (hd : n.dispatcher = .standard) (hc : n.configuration = .ok c)
    (hcache : n.memory.cache = .recalled updates) (hdecode : Packet.decode raw = .ok request)
    (hop : request.opcode = .completeStatus) (hpayload : request.payload = .empty)
    (hreceiver : request.routing.receiver = c.localAddress ∨
      request.routing.receiver = .broadcast) :
    ∃ reply, (n.receive raw).1 = some reply ∧
      Reported (n.context c.localAddress) updates request.routing.sender reply := by
  have hr : Dispatcher.standard.routine? request.opcode = some .completeStatus := by
    rw [hop]
    rfl
  have hforeign : ¬ request.IsForeignQuestion := by
    intro hforeign
    have hquestion := hforeign.question
    rw [hop] at hquestion
    rcases hquestion with h | h <;> cases h
  obtain ⟨reply, hreply, hrouting, hrun⟩ := exists_reply hd hc hdecode hreceiver hr hforeign
  have hheld : (∃ h : Hydrophone, n.memory.cache = h.update) ↔
      ∀ a : Aspect, ∃ update ∈ updates, update.holds a = true := by
    simp only [HydrophoneUpdate.exists_update_iff, hcache, HydrophoneUpdate.holds_recalled_iff]
  have hanswer := Routine.answerCompleteStatus_eq_ok_iff (n.context c.localAddress) n.memory.cache
    (Routine.requireEmpty_some hpayload)
  obtain ⟨hanswered, hrefused⟩ := answered_or_refused hrun
    (P := ∃ h : Hydrophone, n.memory.cache = h.update)
    (Q := fun p => ∃ h : Hydrophone, n.memory.cache = h.update ∧ p.Conveys .completeStatus
      (.completeReport ⟨n.peripherals.battery, .unknown, n.peripherals.location, .unknown, h⟩))
    (fun p hp => by
      obtain ⟨h, hknown, hmade⟩ := (hanswer p).mp hp
      exact ⟨⟨h, hknown⟩, h, hknown, Packet.conveys_of_make hmade⟩)
    (fun ⟨h, hknown⟩ => ⟨_, (hanswer _).mpr ⟨h, hknown, Packet.make_completeReport _ _⟩⟩)
    (fun p ⟨_, _, hp⟩ => by rw [hp.opcode_eq]; decide)
  rw [hheld] at hanswered hrefused
  rw [hcache] at hanswered
  refine ⟨reply, hreply, hrouting, hanswered, ?_⟩
  rw [hrefused]
  push Not
  simp only [ne_eq, Bool.not_eq_true]

theorem run_recollecting [ReliableStore σ] [ImpartialStore σ] {peripherals : Peripherals}
    {store : σ} {n : Node σ} (h : start peripherals store .standard = .ok n)
    (events : List Event) :
    ∃ c, (n.run events).Recollects peripherals.synchronised (n.told events) c := by
  obtain ⟨c, hc, _⟩ := run_inOrder h events
  obtain ⟨hperipherals, hd⟩ := n.run_equipped events
  obtain ⟨hstart, hstandard⟩ := equipment_of_start h
  have hcache := cache_run_of_start h events
  rw [← hstart, ← hperipherals]
  exact ⟨c, hc,
    fun _ _ _ hdecode => fetched (hd.trans hstandard) hc hcache hdecode,
    fun _ _ hdecode => reported (hd.trans hstandard) hc hcache hdecode⟩

/-- **What was told last is remembered.**  Whatever a node has started from and gone through since,
it replies to a fetch of the shore with the aspects that the low half of the mask selects, each as
it was told last, and to a request for a full status with all four of them; unless one of them was
never told, in which case it replies that the request is refused. -/
theorem run_recollects (peripherals : Peripherals) (events : List Event) :
    (∀ (store : MemoryStore) (n : Node MemoryStore), start peripherals store .standard = .ok n →
      ∃ c, (n.run events).Recollects peripherals.synchronised (n.told events) c) ∧
    (∀ (store : FileStore) (n : Node FileStore), start peripherals store .standard = .ok n →
      ∃ c, (n.run events).Recollects peripherals.synchronised (n.told events) c) :=
  ⟨fun _ _ h => run_recollecting h events, fun _ _ h => run_recollecting h events⟩

/-- A node that was told one aspect, some minutes after its start, gives it to the shore, whatever
the high half of the mask is, and refuses a full status. -/
theorem run_recollects_stats :
    let update : HydrophoneUpdate := ⟨none, none, none, some ⟨1700000000, 1, 2, 3⟩⟩
    let change := Packet.sealed .setHydrophone (.toNode ⟨5⟩) (.hydrophoneChange update)
    let fetch := Packet.sealed .getHydrophone (.toNode ⟨5⟩) (.hydrophoneQuery ⟨0xf8⟩)
    let inquiry := Packet.sealed .completeStatus (.toNode .broadcast) .empty
    let n : Node MemoryStore := ⟨⟨⟨77, .charging⟩, ⟨⟨0⟩, ⟨0⟩⟩, 0, ⟨0⟩⟩,
      ⟨⟨{ Configuration.default with localAddress := ⟨5⟩ }, true⟩, .empty⟩, .standard, ⟨0, 0, 0⟩⟩
    let events := [.tick 3, .frame change.wire]
    start n.peripherals n.memory.store .standard = .ok n ∧
      (∃ reply, ((n.run events).receive fetch.wire).1 = some reply ∧
        reply.Conveys .getHydrophone (.hydrophoneAnswer update)) ∧
      ((n.run events).receive inquiry.wire).1 =
        some (.errorReport (.toBackend ⟨5⟩) .invalidPayload) := by
  intro update change fetch inquiry n events
  have hdecode {p : Packet} (hp : p = change ∨ p = fetch ∨ p = inquiry) :
      Packet.decode p.wire = .ok p := by
    rcases hp with rfl | rfl | rfl <;>
      exact (Packet.Carried.of_spells (Packet.spells_sealed rfl (by decide))).decode_wire
  have hstart : start n.peripherals n.memory.store .standard = .ok n := rfl
  have htold : n.told events = [update] := by
    have hlast : (n.after (.tick 3)).told? change.wire = some update := by
      rw [told?, hdecode (.inl rfl)]
      rfl
    simp only [events, told, Event.frames, toldAll, hlast, Option.toList_some, List.append_nil,
      List.nil_append]
  have hconfiguration : (n.run events).configuration =
      .ok { Configuration.default with localAddress := ⟨5⟩ } := by
    have htakes : (n.after (.tick 3)).Takes change.wire
        { Configuration.default with localAddress := ⟨5⟩ } change := ⟨hdecode (.inl rfl), rfl, rfl⟩
    have hrun : n.run events = ((n.after (.tick 3)).receive change.wire).2 := rfl
    rw [hrun, receive_of_takes htakes]
    rfl
  obtain ⟨c, hrecollects⟩ := (run_recollects n.peripherals events).1 _ n hstart
  rw [htold] at hrecollects
  obtain rfl := Except.ok.inj (hrecollects.configuration_eq.symm.trans hconfiguration)
  obtain ⟨answer, hanswer, hfetched⟩ :=
    hrecollects.fetched _ fetch _ (hdecode (.inr (.inl rfl))) rfl rfl (.inl rfl)
  obtain ⟨refusal, hrefusal, hreported⟩ :=
    hrecollects.reported _ inquiry (hdecode (.inr (.inr rfl))) rfl rfl (.inr rfl)
  have hrefused := hreported.refused_iff.mpr ⟨.status, by decide⟩
  rw [hreported.routing_eq] at hrefused
  refine ⟨hstart, ⟨answer, hanswer, hfetched.answered ?_⟩, hrefusal.trans (congrArg some hrefused)⟩
  intro a hselected
  refine ⟨update, .head _, ?_⟩
  cases a
  case stats => rfl
  all_goals cases hselected

end Node

end AcousticNode
