import AcousticNode.Module.Basic

/-!
# Status reports

A report is a fixed sequence of module records, so its length is fixed as well.
-/

set_option autoImplicit false

namespace AcousticNode

/-- A payload of fixed length has neither too few nor too many octets. -/
def expectLength (data : Bytes) (size : Nat) : Except Fault Unit :=
  if data.length < size then .error (.insufficient size data.length)
  else if size < data.length then .error (.payload (.trailing (data.length - size) size))
  else .ok ()

/-- The records of a list of modules whose values all fit. -/
def framesOf (ms : List Module) : Bytes := ms.flatMap Module.frame

/-- Battery, position and clock. -/
structure BasicReport where
  battery : Battery
  location : Location
  clock : Clock
  deriving DecidableEq

namespace BasicReport

/-- Three records with values of 2, 8 and 8 octets. -/
def size : Nat := 3 * Limits.recordHeaderSize + 2 + 8 + 8

def modules (r : BasicReport) : List Module :=
  [.battery r.battery, .location r.location, .clock r.clock]

def encode (r : BasicReport) : Bytes := framesOf r.modules

def decode (data : Bytes) : Except Fault BasicReport := do
  expectLength data size
  match ← Module.decodeAll data with
  | [.battery battery, .location location, .clock clock] => .ok ⟨battery, location, clock⟩
  | _ => .error (.payload .basicReportShape)

def numericallyEqual (a b : BasicReport) : Bool :=
  a.battery == b.battery && a.location.numericallyEqual b.location && a.clock == b.clock

end BasicReport

/-- Full status, with the state of the hydrophone. -/
structure CompleteReport where
  battery : Battery
  ambient : Ambient
  location : Location
  storage : Storage
  hydrophone : Hydrophone
  deriving DecidableEq

namespace CompleteReport

/-- Five records; the last one nests four aspect records of 34, 19, 18 and 11 octets. -/
def size : Nat :=
  5 * Limits.recordHeaderSize + 2 + 2 + 8 + 8 + (4 * Limits.recordHeaderSize + 34 + 19 + 18 + 11)

def modules (r : CompleteReport) : List Module :=
  [.battery r.battery, .ambient r.ambient, .location r.location, .storage r.storage,
    .hydrophone r.hydrophone]

def encode (r : CompleteReport) : Bytes := framesOf r.modules

def decode (data : Bytes) : Except Fault CompleteReport := do
  expectLength data size
  match ← Module.decodeAll data with
  | [.battery battery, .ambient ambient, .location location, .storage storage,
      .hydrophone hydrophone] => .ok ⟨battery, ambient, location, storage, hydrophone⟩
  | _ => .error (.payload .completeReportShape)

def numericallyEqual (a b : CompleteReport) : Bool :=
  a.battery == b.battery && a.ambient == b.ambient &&
    a.location.numericallyEqual b.location && a.storage == b.storage &&
    a.hydrophone.numericallyEqual b.hydrophone

end CompleteReport

end AcousticNode
