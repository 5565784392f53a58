import AcousticNode.Node.Routine

/-!
# Dispatch

A dispatcher knows the routine of each operation code.  Every packet gets exactly one answer:
what its routine says, or an error report to its sender.
-/

set_option autoImplicit false

namespace AcousticNode

/-- The routines of the operation codes. -/
structure Dispatcher where
  routine? : Opcode → Option Routine

namespace Dispatcher

variable {σ : Type} [ConfigurationStore σ]

/-- No routine at all. -/
def empty : Dispatcher := ⟨fun _ => none⟩

/-- The routines of a node.  Error reports have none. -/
def standard : Dispatcher where
  routine?
    | .errorReport => none
    | .completeStatus => some .completeStatus
    | .basicStatus => some .basicStatus
    | .setConfiguration => some .changeConfiguration
    | .getConfiguration => some .reportConfiguration
    | .getHydrophone => some .fetchHydrophone
    | .setHydrophone => some .storeHydrophone

/-- The dispatcher with another routine, or none, for an operation code. -/
def assign (d : Dispatcher) (op : Opcode) (r : Option Routine) : Dispatcher :=
  ⟨fun other => if other = op then r else d.routine? other⟩

/-- The operation codes that have a routine. -/
def registered (d : Dispatcher) : List Opcode := Opcode.all.filter fun op => (d.routine? op).isSome

/-- Runs the routine of an operation code for a request, or for the node itself. -/
def run (d : Dispatcher) (op : Opcode) (ctx : Context) (mem : Memory σ)
    (request : Option Packet) : Except Fault Packet × Memory σ :=
  match d.routine? op with
  | some r => r.run ctx mem request
  | none => (.error (.unknownOpcode op.byte), mem)

/-- The error report that tells of a fault. -/
def reportOf : Fault → ErrorCode
  | .forbiddenSender _ => .invalidSender
  | _ => .invalidPayload

/-- Answers a packet. -/
def answer (d : Dispatcher) (ctx : Context) (mem : Memory σ) (p : Packet) :
    Packet × Memory σ :=
  let back := p.routing.reply ctx.localAddress
  match d.routine? p.opcode with
  | none => (.errorReport back .invalidOpcode, mem)
  | some r =>
    match r.run ctx mem (some p) with
    | (.ok reply, mem) => (reply, mem)
    | (.error e, mem) => (.errorReport back (reportOf e), mem)

end Dispatcher

end AcousticNode
