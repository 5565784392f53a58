import AcousticNode.Payload.RecordList
import AcousticNode.Payload.Reports
import AcousticNode.Wire.Routing

/-!
# Payloads

What a packet carries.  The operation code and the direction of travel select the kind of
payload: two operation codes carry a question towards a node and its answer towards the shore.

* `fits_decode` : whatever is decoded for an operation code and a direction fits them.
-/

set_option autoImplicit false

namespace AcousticNode

/-- Why a request was refused. -/
inductive ErrorCode where
  | invalidOpcode
  | invalidPayload
  | invalidSender
  | invalidRecipient
  | invalidLength
  | invalidSync
  deriving DecidableEq, Repr

namespace ErrorCode

instance : Enumeration ErrorCode where
  byte
    | invalidOpcode => 1
    | invalidPayload => 2
    | invalidSender => 3
    | invalidRecipient => 4
    | invalidLength => 5
    | invalidSync => 6
  all := [invalidOpcode, invalidPayload, invalidSender, invalidRecipient, invalidLength,
    invalidSync]
  mem_all a := by cases a <;> decide
  byte_injective a b := by cases a <;> cases b <;> decide

def text : ErrorCode → String
  | invalidOpcode => "invalid operation code"
  | invalidPayload => "invalid payload"
  | invalidSender => "invalid sender address"
  | invalidRecipient => "invalid recipient address"
  | invalidLength => "invalid packet length"
  | invalidSync => "invalid sync byte"

/-- A single octet. -/
def size : Nat := 1

def encode (c : ErrorCode) : Bytes := [Enumeration.byte c]

def decode (data : Bytes) : Except Fault ErrorCode := do
  expectLength data size
  (Layout.enumerated ErrorCode .errorCode).read data

end ErrorCode

/-- The codes of the modules that the shore asks for. -/
def decodeCodes : Bytes → Except Fault (List ModuleCode)
  | [] => .ok []
  | b :: bs =>
    match Enumeration.ofByte? b with
    | none => .error (.unknownModule b)
    | some c => (decodeCodes bs).map (c :: ·)

namespace AspectMask

/-- A single octet. -/
def size : Nat := 1

def encode (m : AspectMask) : Bytes := [m.octet]

def decode (data : Bytes) : Except Fault AspectMask := do
  expectLength data size
  return ⟨data.headD 0⟩

end AspectMask

namespace HydrophoneUpdate

def encode (u : HydrophoneUpdate) : Bytes := framesOf u.modules

/-- The length of the records. -/
def size (u : HydrophoneUpdate) : Nat := u.modules.foldr (fun m n => m.size + n) 0

def decode (data : Bytes) : Except Fault HydrophoneUpdate := do
  ofModules (← Module.decodeAll data)

end HydrophoneUpdate

/-- What a packet carries. -/
inductive Payload where
  /-- Nothing: a request for a status report. -/
  | empty
  | error (code : ErrorCode)
  | basicReport (report : BasicReport)
  | completeReport (report : CompleteReport)
  /-- The modules that the shore asks for. -/
  | configurationQuery (codes : List ModuleCode)
  /-- New settings for a node. -/
  | configurationChange (records : RecordList)
  /-- A node's settings. -/
  | configurationAnswer (records : RecordList)
  /-- The aspects of the hydrophone that the shore asks for. -/
  | hydrophoneQuery (mask : AspectMask)
  /-- New aspects of the hydrophone. -/
  | hydrophoneChange (update : HydrophoneUpdate)
  /-- Aspects of the hydrophone. -/
  | hydrophoneAnswer (update : HydrophoneUpdate)
  deriving DecidableEq

namespace Payload

/-- Decodes the payload of a packet with the given operation code and routing. -/
def decode (op : Opcode) (routing : Routing) (data : Bytes) : Except Fault Payload :=
  match op with
  | .errorReport => (ErrorCode.decode data).map error
  | .basicStatus =>
    if data.isEmpty then .ok empty else (BasicReport.decode data).map basicReport
  | .completeStatus =>
    if data.isEmpty then .ok empty else (CompleteReport.decode data).map completeReport
  | .setConfiguration => (RecordList.ofBytes data).map configurationChange
  | .getConfiguration =>
    if routing.isUplink then (RecordList.ofBytes data).map configurationAnswer
    else (decodeCodes data).map configurationQuery
  | .getHydrophone =>
    if routing.isUplink then (HydrophoneUpdate.decode data).map hydrophoneAnswer
    else (AspectMask.decode data).map hydrophoneQuery
  | .setHydrophone => (HydrophoneUpdate.decode data).map hydrophoneChange

/-- Whether packets with this operation code and routing carry this kind of payload. -/
def fits (p : Payload) (op : Opcode) (routing : Routing) : Bool :=
  match p with
  | empty => op == .basicStatus || op == .completeStatus
  | error _ => op == .errorReport
  | basicReport _ => op == .basicStatus
  | completeReport _ => op == .completeStatus
  | configurationQuery _ => op == .getConfiguration && !routing.isUplink
  | configurationChange _ => op == .setConfiguration
  | configurationAnswer _ => op == .getConfiguration && routing.isUplink
  | hydrophoneQuery _ => op == .getHydrophone && !routing.isUplink
  | hydrophoneChange _ => op == .setHydrophone
  | hydrophoneAnswer _ => op == .getHydrophone && routing.isUplink

def encode : Payload → Bytes
  | empty => []
  | error c => c.encode
  | basicReport r => r.encode
  | completeReport r => r.encode
  | configurationQuery codes => codes.map ModuleCode.byte
  | configurationChange l => l.bytes
  | configurationAnswer l => l.bytes
  | hydrophoneQuery m => m.encode
  | hydrophoneChange u => u.encode
  | hydrophoneAnswer u => u.encode

/-- The length of a payload. -/
def size : Payload → Nat
  | empty => 0
  | error _ => ErrorCode.size
  | basicReport _ => BasicReport.size
  | completeReport _ => CompleteReport.size
  | configurationQuery codes => codes.length
  | configurationChange l => l.bytes.length
  | configurationAnswer l => l.bytes.length
  | hydrophoneQuery _ => AspectMask.size
  | hydrophoneChange u => u.size
  | hydrophoneAnswer u => u.size

/-- Whether two payloads say the same when floating-point numbers are compared as numbers. -/
def numericallyEqual : Payload → Payload → Bool
  | basicReport a, basicReport b => a.numericallyEqual b
  | completeReport a, completeReport b => a.numericallyEqual b
  | hydrophoneChange a, hydrophoneChange b => a.numericallyEqual b
  | hydrophoneAnswer a, hydrophoneAnswer b => a.numericallyEqual b
  | a, b => a == b

theorem fits_decode {op : Opcode} {routing : Routing} {data : Bytes} {p : Payload}
    (h : decode op routing data = .ok p) : p.fits op routing = true := by
  have map_ok : ∀ {α : Type} {x : Except Fault α} {f : α → Payload},
      x.map f = .ok p → ∃ a, p = f a := by
    intro α x f hx
    cases x with
    | error e => simp [Except.map] at hx
    | ok a => exact ⟨a, by simpa [Except.map, eq_comm] using hx⟩
  cases op <;> simp only [decode] at h
  case errorReport => obtain ⟨a, rfl⟩ := map_ok h; rfl
  case setConfiguration => obtain ⟨a, rfl⟩ := map_ok h; rfl
  case setHydrophone => obtain ⟨a, rfl⟩ := map_ok h; rfl
  all_goals split at h
  case basicStatus.isTrue => cases h; rfl
  case completeStatus.isTrue => cases h; rfl
  all_goals
    obtain ⟨a, rfl⟩ := map_ok h
    simp_all [fits]

end Payload

end AcousticNode
