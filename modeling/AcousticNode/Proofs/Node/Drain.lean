import AcousticNode.Proofs.FrameQueue
import AcousticNode.Proofs.Node.Exchange

/-!
# Drained links

To drain a link is to take in its frames one by one and to answer each on the same link before the
next is looked at.  Frames wait in a queue that keeps the newest ones; answers that are too long
for the medium are left out, and a send that fails loses its answer and nothing else.  A change
that is repeated is as long as the frame that asked for it, so what came in over a medium can be
acknowledged over it.

* `read_receiveAll` : the frames that wait;
* `foldl_attend` : frame by frame, or all frames first and then all answers;
* `sendAll_eq` : which answers are sent;
* `size_of_repeats` : a repeated change is as long as the frame;
* `drain_attended` : every drain of every link.
-/

set_option autoImplicit false

namespace AcousticNode

/-! ## Links -/

namespace Link

/-- One frame after another comes in. -/
def receiveAll (l : Link) (frames : List Bytes) : Link := frames.foldl receive l

/-- The links that there are: frames come in and are read, and frames are sent and taken away. -/
inductive Reached : Link → Prop where
  | ofMedium (m : Medium) : Reached (.ofMedium m)
  | receive {l : Link} (frame : Bytes) (h : Reached l) : Reached (l.receive frame)
  | read {l : Link} (h : Reached l) : Reached l.read.2
  | send {l : Link} (frame : Bytes) (h : Reached l) : Reached (l.send frame)
  | takeSent {l : Link} (h : Reached l) : Reached l.takeSent.2

theorem Reached.capacity_eq {l : Link} (h : l.Reached) :
    l.inbound.capacity = Limits.queueCapacity := by
  induction h with
  | ofMedium m => rfl
  | receive frame _ ih => exact (FrameQueue.capacity_push _ frame).trans ih
  | read _ ih => exact ih
  | send frame _ ih => exact ih
  | takeSent _ ih => exact ih

/-- Frames that come in go to the queue. -/
theorem receiveAll_eq (l : Link) (frames : List Bytes) :
    l.receiveAll frames = { l with inbound := l.inbound.pushAll frames } := by
  induction frames generalizing l with
  | nil => rfl
  | cons frame frames ih => exact ih (l.receive frame)

/-- Of the frames that have come in since a link was read the newest are still there. -/
theorem read_receiveAll {l : Link} (h : l.Reached) (frames : List Bytes) :
    (l.read.2.receiveAll frames).read.1 = frames.rtake Limits.queueCapacity := by
  have hcapacity : l.read.2.inbound.capacity = Limits.queueCapacity := h.read.capacity_eq
  have hitems := FrameQueue.items_pushAll (q := l.read.2.inbound)
    (by rw [hcapacity]; decide) (Nat.zero_le _) frames
  rw [hcapacity] at hitems
  rw [receiveAll_eq]
  exact hitems

end Link

/-- The answers that a medium carries, as they are sent. -/
def Medium.carried (m : Medium) (replies : List Packet) : List Bytes :=
  (replies.map (·.wire)).filter fun w => w.length ≤ m.maxFrame

namespace Medium

theorem carried_append (m : Medium) (ps qs : List Packet) :
    m.carried (ps ++ qs) = m.carried ps ++ m.carried qs := by
  rw [carried, List.map_append, List.filter_append]
  rfl

theorem carried_cons_of_le {m : Medium} {p : Packet} (h : p.size ≤ m.maxFrame)
    (ps : List Packet) : m.carried (p :: ps) = p.wire :: m.carried ps :=
  List.filter_cons_of_pos (decide_eq_true h)

theorem carried_cons_of_lt {m : Medium} {p : Packet} (h : m.maxFrame < p.size)
    (ps : List Packet) : m.carried (p :: ps) = m.carried ps :=
  List.filter_cons_of_neg fun hfits => Nat.not_le.mpr h (of_decide_eq_true hfits)

/-- A medium that takes every packet carries every answer. -/
theorem carried_eq_map {m : Medium} (hm : m ≠ .lora) {replies : List Packet}
    (h : ∀ p ∈ replies, p.size ≤ Limits.maxPacketSize) :
    m.carried replies = replies.map (·.wire) := by
  have hmax : m.maxFrame = Limits.maxPacketSize := by
    cases m with
    | lora => exact absurd rfl hm
    | satellite | serial => rfl
  refine List.filter_eq_self.mpr fun w hw => ?_
  obtain ⟨p, hp, rfl⟩ := List.mem_map.mp hw
  rw [hmax]
  exact decide_eq_true (h p hp)

end Medium

/-- The frames of a list that are sent, when attempts fail by their numbers. -/
def unrefused (refused : Nat → Bool) (attempt : Nat) (frames : List Bytes) : List Bytes :=
  ((frames.zipIdx attempt).filter fun e => !refused e.2).map (·.1)

variable {σ : Type} [ConfigurationStore σ]

namespace Node

/-! ## Frame by frame -/

/-- A node at work on the frames of a link. -/
structure Service (σ : Type) where
  node : Node σ
  link : Link
  sent : Nat
  /-- Every frame that was handed over to be sent, whether or not it was. -/
  handed : List Bytes

/-- Takes in a frame, and hands over the answer if there is one that the medium carries. -/
def Service.attend (refused : Nat → Bool) (s : Service σ) (raw : Bytes) : Service σ :=
  match s.node.receive raw with
  | (none, node) => { s with node := node }
  | (some reply, node) =>
    if s.link.medium.maxFrame < reply.size then { s with node := node }
    else if refused s.handed.length then
      { s with node := node, handed := s.handed ++ [reply.wire] }
    else ⟨node, s.link.send reply.wire, s.sent + 1, s.handed ++ [reply.wire]⟩

/-- Attends to every frame that waits on a link, one by one. -/
def serve (n : Node σ) (link : Link) (refused : Nat → Bool) : Service σ :=
  link.read.1.foldl (Service.attend refused) ⟨n, link.read.2, 0, []⟩

theorem receiveAll_cons (n : Node σ) (raw : Bytes) (rest : List Bytes) :
    n.receiveAll (raw :: rest) =
      ((n.receive raw).1.toList ++ ((n.receive raw).2.receiveAll rest).1,
        ((n.receive raw).2.receiveAll rest).2) := rfl

theorem receiveAll_append (n : Node σ) (before after : List Bytes) :
    n.receiveAll (before ++ after) =
      ((n.receiveAll before).1 ++ ((n.receiveAll before).2.receiveAll after).1,
        ((n.receiveAll before).2.receiveAll after).2) := by
  induction before generalizing n with
  | nil => rfl
  | cons raw before ih =>
    rw [List.cons_append, receiveAll_cons, ih, receiveAll_cons, List.append_assoc]

/-- What all frames and then all answers come to, after what has been done already. -/
def Service.batch (refused : Nat → Bool) (s : Service σ) (raws : List Bytes) : Service σ :=
  let frames := s.link.medium.carried (s.node.receiveAll raws).1
  let out := sendAll refused s.handed.length s.link frames
  ⟨(s.node.receiveAll raws).2, out.1, s.sent + out.2, s.handed ++ frames⟩

/-- It makes no difference whether the first frame is attended to apart from the others. -/
theorem Service.batch_attend (refused : Nat → Bool) (s : Service σ) (raw : Bytes)
    (raws : List Bytes) :
    (s.attend refused raw).batch refused raws = s.batch refused (raw :: raws) := by
  cases hreceive : s.node.receive raw with
  | mk reply node =>
    simp only [attend, batch, receiveAll_cons, hreceive]
    cases reply with
    | none => rfl
    | some reply =>
      simp only [Option.toList_some, List.singleton_append]
      split
      · rename_i hlong
        rw [Medium.carried_cons_of_lt hlong]
      · rename_i hfits
        rw [Medium.carried_cons_of_le (Nat.le_of_not_lt hfits), sendAll]
        split
        · simp
        · simp [Link.send, Nat.add_assoc, Nat.add_comm 1]

theorem Service.foldl_attend (refused : Nat → Bool) (s : Service σ) (raws : List Bytes) :
    raws.foldl (attend refused) s = s.batch refused raws := by
  induction raws generalizing s with
  | nil =>
    obtain ⟨node, link, sent, handed⟩ := s
    simp [batch, receiveAll, Medium.carried, sendAll]
  | cons raw raws ih => rw [List.foldl_cons, ih, batch_attend]

/-- A drain attends to the frames of the link one by one. -/
theorem drain_eq_serve (n : Node σ) (link : Link) (refused : Nat → Bool) :
    n.drain link refused =
      ⟨(n.serve link refused).node, (n.serve link refused).link, (n.serve link refused).sent⟩ := by
  rw [serve, Service.foldl_attend]
  simp only [Service.batch, Nat.zero_add]
  rfl

theorem sendAll_eq (refused : Nat → Bool) (attempt : Nat) (link : Link) (frames : List Bytes) :
    sendAll refused attempt link frames =
      ({ link with sent := link.sent ++ unrefused refused attempt frames },
        (unrefused refused attempt frames).length) := by
  induction frames generalizing attempt link with
  | nil => simp [sendAll, unrefused]
  | cons frame frames ih =>
    rw [sendAll]
    split
    · rename_i hrefused
      have hlost : unrefused refused attempt (frame :: frames) =
          unrefused refused (attempt + 1) frames := by
        simp [unrefused, hrefused]
      rw [ih, hlost]
    · rename_i hrefused
      have hkept : unrefused refused attempt (frame :: frames) =
          frame :: unrefused refused (attempt + 1) frames := by
        simp [unrefused, hrefused]
      rw [ih, hkept]
      simp [Link.send]

/-! ## Answers -/

/-- Every answer is a packet that its octets are decoded to. -/
theorem carried_of_receive {n : Node σ} {raw : Bytes} {reply : Packet}
    (h : (n.receive raw).1 = some reply) : reply.Carried := by
  obtain ⟨request, hreplied⟩ := replied_of_receive h
  exact (Packet.Obtained.decoded hreplied.decode_wire).carried

theorem size_of_mem_receiveAll {n : Node σ} {raws : List Bytes} {reply : Packet}
    (h : reply ∈ (n.receiveAll raws).1) : reply.size ≤ Limits.maxPacketSize := by
  induction raws generalizing n with
  | nil => cases h
  | cons raw raws ih =>
    rw [receiveAll_cons, List.mem_append] at h
    rcases h with hfirst | hlater
    · exact (carried_of_receive (Option.mem_toList.mp hfirst)).size_le
    · exact ih hlater

/-- A change is repeated with as many octets as it was asked for with. -/
theorem size_of_repeats {n : Node σ} {raw : Bytes} {reply : Packet}
    (h : (n.receive raw).1 = some reply) (hchange : reply.opcode.isChange = true) :
    reply.size = raw.length := by
  obtain ⟨request, hreplied⟩ := replied_of_receive h
  have hrequest := (Packet.Obtained.decoded hreplied.decode_eq).carried.size_eq
  have hreply := (carried_of_receive h).size_eq
  have hwire : request.size = raw.length := by
    obtain ⟨_, hspells⟩ := Packet.decode_eq_ok_iff.mp hreplied.decode_eq
    exact congrArg List.length hspells.wire
  rw [hreply, (hreplied.repeats hchange).payload_eq, ← hrequest, hwire]

/-! ## Drains -/

/-- What a drain of a link makes of the frames that are taken in. -/
structure Attended (n : Node σ) (link : Link) (taken : List Bytes) (refused : Nat → Bool) :
    Prop where
  drain_eq : n.drain link refused =
    ⟨(n.serve link refused).node, (n.serve link refused).link, (n.serve link refused).sent⟩
  inbound_eq : (n.drain link refused).link.inbound.items = []
  node_eq : (n.drain link refused).node = (n.receiveAll taken).2
  handed_eq : (n.serve link refused).handed = link.medium.carried (n.receiveAll taken).1
  sent_eq : (n.drain link refused).link.sent =
    link.sent ++ unrefused refused 0 (n.serve link refused).handed
  count_eq : (n.drain link refused).sent =
    (unrefused refused 0 (n.serve link refused).handed).length
  /-- Media that take every packet leave out no answer. -/
  all_handed : link.medium ≠ .lora →
    (n.serve link refused).handed = (n.receiveAll taken).1.map (·.wire)
  /-- A change that was asked for over the medium is repeated over it, in its turn. -/
  repeated : ∀ before raw after, taken = before ++ raw :: after →
    raw.length ≤ link.medium.maxFrame →
    ∀ reply, ((n.receiveAll before).2.receive raw).1 = some reply → reply.opcode.isChange = true →
      (n.serve link refused).handed = link.medium.carried (n.receiveAll before).1 ++
        reply.wire :: link.medium.carried
          (((n.receiveAll before).2.receive raw).2.receiveAll after).1

theorem attended_read (n : Node σ) (link : Link) (refused : Nat → Bool) :
    n.Attended link link.read.1 refused := by
  have hserve : n.serve link refused = Service.batch refused ⟨n, link.read.2, 0, []⟩ link.read.1 :=
    Service.foldl_attend refused _ link.read.1
  have hhanded : (n.serve link refused).handed =
      link.medium.carried (n.receiveAll link.read.1).1 := by
    rw [hserve]
    rfl
  have hlink : (n.serve link refused).link = { link.read.2 with
      sent := link.sent ++ unrefused refused 0 (n.serve link refused).handed } := by
    rw [hhanded, hserve]
    exact congrArg Prod.fst (sendAll_eq refused 0 link.read.2 _)
  have hsent : (n.serve link refused).sent =
      (unrefused refused 0 (n.serve link refused).handed).length := by
    rw [hhanded, hserve]
    exact (Nat.zero_add _).trans (congrArg Prod.snd (sendAll_eq refused 0 link.read.2 _))
  have hdrain := n.drain_eq_serve link refused
  refine ⟨hdrain, ?_, rfl, hhanded, ?_, ?_, fun hmedium => ?_, ?_⟩
  · rw [hdrain, hlink]
    exact List.isEmpty_iff.mp link.inbound.isEmpty_takeAll
  · rw [hdrain, hlink]
  · rw [hdrain, hsent]
  · rw [hhanded]
    exact Medium.carried_eq_map hmedium fun p hp => size_of_mem_receiveAll hp
  · intro before raw after htaken hlen reply hreply hchange
    have hfits : reply.size ≤ link.medium.maxFrame := by
      rw [size_of_repeats hreply hchange]
      exact hlen
    rw [hhanded, htaken, receiveAll_append, receiveAll_cons, hreply, Option.toList_some,
      List.singleton_append, Medium.carried_append, Medium.carried_cons_of_le hfits]

/-- **A drain answers frame by frame.**  Of the frames that have come in since a link was read the
last ten are taken in, in their order, with whatever they make of the node, on every medium and
however many sends fail.  Every answer that the medium carries is handed over, among them the
repetition of every change that came in over it, and the ones that are not refused are sent. -/
theorem drain_attended (n : Node σ) {l : Link} (h : l.Reached) (frames : List Bytes)
    (refused : Nat → Bool) :
    n.Attended (l.read.2.receiveAll frames) (frames.rtake 10) refused := by
  have hread : (l.read.2.receiveAll frames).read.1 = frames.rtake 10 :=
    Link.read_receiveAll h frames
  rw [← hread]
  exact n.attended_read _ refused

/-- Twelve frames come in, of which the last ten are noise and a change that comes twice.  Of its
two repetitions the first is lost, but the change is made. -/
theorem drain_attended_flood :
    let update : HydrophoneUpdate := ⟨none, none, none, some ⟨1700000000, 1, 2, 3⟩⟩
    let change := Packet.sealed .setHydrophone (.toNode ⟨5⟩) (.hydrophoneChange update)
    let echo := Packet.sealed .setHydrophone (.toBackend ⟨5⟩) (.hydrophoneChange update)
    let n : Node MemoryStore := ⟨⟨⟨77, .charging⟩, ⟨⟨0⟩, ⟨0⟩⟩, 0, ⟨0⟩⟩,
      ⟨⟨{ Configuration.default with localAddress := ⟨5⟩ }, true⟩, .empty⟩, .standard, ⟨0, 0, 0⟩⟩
    let link := (Link.ofMedium .lora).receiveAll
      (change.wire :: List.replicate 9 [0xde] ++ [change.wire, change.wire])
    let drained := n.drain link (· == 0)
    (Link.ofMedium .lora).Reached ∧
      (n.serve link (· == 0)).handed = [echo.wire, echo.wire] ∧
      drained.link.sent = [echo.wire] ∧ drained.sent = 1 ∧
      drained.node.memory.cache = update := by
  intro update change echo n link drained
  have hreached : (Link.ofMedium .lora).Reached := .ofMedium .lora
  have htake (w : Bytes) : (w :: List.replicate 9 [0xde] ++ [w, w]).rtake 10 =
      List.replicate 8 [0xde] ++ [w, w] := rfl
  have hattended : n.Attended link (List.replicate 8 [0xde] ++ [change.wire, change.wire])
      (· == 0) := by
    rw [← htake]
    exact n.drain_attended hreached _ _
  have hdecode : Packet.decode change.wire = .ok change :=
    Packet.decode_wire_sealed rfl (by decide)
  have hchange (cache : HydrophoneUpdate) :
      ({ n with memory := { n.memory with cache := cache } }).receive change.wire =
        (some echo, { n with memory := { n.memory with cache := cache.store update } }) := by
    rw [receive, Frame.ofBytes, hdecode]
    rfl
  have htaken : n.receiveAll (List.replicate 8 [0xde] ++ [change.wire, change.wire]) =
      ([echo, echo], { n with memory := { n.memory with cache := update } }) := by
    have hnoise : n.receiveAll (List.replicate 8 [0xde]) = ([], n) := rfl
    have hfirst : n.receive change.wire =
        (some echo, { n with memory := { n.memory with cache := update } }) := hchange .empty
    rw [receiveAll_append, hnoise, receiveAll_cons, hfirst, receiveAll_cons, hchange update]
    rfl
  have hmedium : link.medium = .lora := by
    simp only [link, Link.receiveAll_eq]
    rfl
  have hhanded : (n.serve link (· == 0)).handed = [echo.wire, echo.wire] := by
    have hsize : echo.size ≤ Medium.lora.maxFrame := by decide +kernel
    rw [hattended.handed_eq, htaken, hmedium, Medium.carried_cons_of_le hsize,
      Medium.carried_cons_of_le hsize]
    rfl
  have hsent (w : Bytes) : unrefused (· == 0) 0 [w, w] = [w] := rfl
  have hempty : link.sent = [] := by
    simp only [link, Link.receiveAll_eq]
    rfl
  refine ⟨hreached, hhanded, ?_, ?_, ?_⟩
  · rw [hattended.sent_eq, hhanded, hsent, hempty, List.nil_append]
  · rw [hattended.count_eq, hhanded, hsent, List.length_singleton]
  · rw [hattended.node_eq, htaken]

end Node

end AcousticNode
