import AcousticNode.Node.Dispatcher
import AcousticNode.Link

/-!
# The node

A node answers the frames that reach it and, once a minute, moves through its operation modes
and sends the report that is due.
-/

set_option autoImplicit false

namespace AcousticNode

/-- Where a node is in its mode graph and its reporting schedule. -/
structure Agenda where
  mode : Mode
  /-- Cycles spent in the mode. -/
  cycles : Nat
  /-- The minute of the last report that was due. -/
  lastReport : Nat
  deriving DecidableEq, Repr

namespace Agenda

/-- The count of cycles stops here. -/
def maxCycles : Nat := 4294967295

/-- Moves on when the mode has lasted long enough.  A mode that the graph no longer knows gives
way to the lowest one. -/
def advance (a : Agenda) (graph : ModeGraph) : Agenda :=
  match graph.get? a.mode with
  | some t =>
    if t.duration.toNat ≤ a.cycles then { a with mode := t.next, cycles := 0 } else a
  | none =>
    match ModeGraph.first? graph with
    | some mode => { a with mode := mode, cycles := 0 }
    | none => a

/-- The report type that is due at a minute, if the mode has an entry whose period has passed
since the last one. -/
def due? (a : Agenda) (entries : Table Mode ReportEntry) (minute : Nat) : Option ReportType :=
  match entries.get? a.mode with
  | some e => if e.period.toNat ≤ minute - a.lastReport then some e.report else none
  | none => none

/-- One more cycle in the mode. -/
def countCycle (a : Agenda) : Agenda := { a with cycles := min (a.cycles + 1) maxCycles }

end Agenda

/-- The operation code of a scheduled report. -/
def ReportType.opcode : ReportType → Opcode
  | complete => .completeStatus
  | basic => .basicStatus
  | summary => .basicStatus

/-- A node with its configuration on a medium of type `σ`. -/
structure Node (σ : Type) where
  peripherals : Peripherals
  memory : Memory σ
  dispatcher : Dispatcher
  agenda : Agenda

namespace Node

variable {σ : Type} [ConfigurationStore σ]

/-- The stored configuration. -/
def configuration (n : Node σ) : Except Fault Configuration :=
  ConfigurationStore.load n.memory.store

/-- Starts a node in the lowest mode of a valid stored configuration, with an empty cache and the
clock set from the last position fix. -/
def start (peripherals : Peripherals) (store : σ) (dispatcher : Dispatcher) :
    Except Fault (Node σ) := do
  let c ← ConfigurationStore.load store
  c.check
  match ModeGraph.first? c.graph with
  | none => .error (.configuration .emptyGraph)
  | some mode =>
    return ⟨peripherals.synchronised, ⟨store, .empty⟩, dispatcher, ⟨mode, 0, 0⟩⟩

/-- What routines look at. -/
def context (n : Node σ) (localAddress : Address) : Context :=
  ⟨localAddress, n.agenda.mode, n.peripherals⟩

/-- Whether a packet is answered by a node with the given address: it is addressed to the node
or to all, and is not an error report. -/
def accepts (localAddress : Address) (p : Packet) : Bool :=
  (p.routing.receiver == localAddress || p.routing.receiver.isBroadcast) &&
    match p.payload with
    | .error _ => false
    | _ => true

/-- Answers a packet. -/
def answer (n : Node σ) (localAddress : Address) (p : Packet) : Packet × Node σ :=
  let (reply, memory) := n.dispatcher.answer (n.context localAddress) n.memory p
  (reply, { n with memory := memory })

/-- Takes in a frame.  There is no answer to octets that are no packet, to packets for others,
and to error reports; nor is there any while the configuration cannot be loaded. -/
def receive (n : Node σ) (raw : Bytes) : Option Packet × Node σ :=
  match Frame.ofBytes raw, n.configuration with
  | .valid p, .ok c =>
    if accepts c.localAddress p then
      let (reply, n) := n.answer c.localAddress p
      (some reply, n)
    else (none, n)
  | _, _ => (none, n)

/-- Takes in one frame after another and keeps the answers. -/
def receiveAll (n : Node σ) : List Bytes → List Packet × Node σ
  | [] => ([], n)
  | raw :: rest =>
    let (reply, n) := n.receive raw
    let (replies, n) := receiveAll n rest
    (reply.toList ++ replies, n)

/-- Runs the routine of a scheduled report. -/
def sendReport (n : Node σ) (localAddress : Address) (t : ReportType) : Option Packet × Node σ :=
  let (result, memory) :=
    n.dispatcher.run t.opcode (n.context localAddress) n.memory none
  (result.toOption, { n with memory := memory })

/-- One minute of the schedule: the mode moves on, a report that is due is made, and the cycle
counts.  The minute of a due report is kept even if the report cannot be made. -/
def tick (n : Node σ) (minute : Nat) : Option Packet × Node σ :=
  match n.configuration with
  | .error _ => (none, n)
  | .ok c =>
    let agenda := n.agenda.advance c.graph
    match agenda.due? c.iridium.entries minute with
    | none => (none, { n with agenda := agenda.countCycle })
    | some t =>
      let due := { n with agenda := { agenda with lastReport := minute } }
      let (report, n) := due.sendReport c.localAddress t
      (report, { n with agenda := n.agenda.countCycle })

/-- What a drained link leaves behind. -/
structure Drained (σ : Type) where
  node : Node σ
  link : Link
  /-- How many answers were sent. -/
  sent : Nat

/-- Sends frames in order; attempts that `refused` names by number, from `attempt` on, fail and
lose their frame. -/
def sendAll (refused : Nat → Bool) (attempt : Nat) (link : Link) : List Bytes → Link × Nat
  | [] => (link, 0)
  | frame :: rest =>
    if refused attempt then sendAll refused (attempt + 1) link rest
    else
      let (link, sent) := sendAll refused (attempt + 1) (link.send frame) rest
      (link, sent + 1)

/-- Answers every frame that waits on a link, on the same link.  Answers that are too long for
the medium are dropped, and so is every answer whose sending fails. -/
def drain (n : Node σ) (link : Link) (refused : Nat → Bool) : Drained σ :=
  let (frames, link) := link.read
  let (replies, n) := n.receiveAll frames
  let attempts := (replies.map (·.wire)).filter fun w => w.length ≤ link.medium.maxFrame
  let (link, sent) := sendAll refused 0 link attempts
  ⟨n, link, sent⟩

end Node

end AcousticNode
