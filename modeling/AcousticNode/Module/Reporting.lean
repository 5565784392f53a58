import AcousticNode.Module.Modes

/-!
# Reporting schedules

For each operation mode, how often a report is sent over a transport and what it holds.
-/

set_option autoImplicit false

namespace AcousticNode

/-- What a scheduled report holds. -/
inductive ReportType where
  | complete
  | basic
  | summary
  deriving DecidableEq, Repr

namespace ReportType

/-- The octets are letters: `C B S`. -/
instance : Enumeration ReportType where
  byte
    | complete => 0x43
    | basic => 0x42
    | summary => 0x53
  all := [complete, basic, summary]
  mem_all a := by cases a <;> decide
  byte_injective a b := by cases a <;> cases b <;> decide

def name : ReportType → String
  | complete => "COMPLETE"
  | basic => "BASIC"
  | summary => "SUMMARY"

/-- The report type of an octet. -/
def ofByte (octet : UInt8) : Except Fault ReportType :=
  match Enumeration.ofByte? octet with
  | some t => .ok t
  | none => .error (.unknownReport octet)

end ReportType

/-- How often, in minutes, and what to report. -/
structure ReportEntry where
  period : UInt16
  report : ReportType
  deriving DecidableEq, Repr

/-- The reporting schedule of one transport. -/
structure Reporting where
  transport : Transport
  entries : Table Mode ReportEntry
  deriving DecidableEq

namespace Reporting

/-- The octets of a list of entries. -/
def writeEntries : List (Mode × ReportEntry) → Bytes
  | [] => []
  | (mode, e) :: rest =>
    mode :: (wordOctets e.period ++ Enumeration.byte e.report :: writeEntries rest)

/-- The value of a reporting record: the transport, then four octets to a mode, ascending. -/
def write (r : Reporting) : Bytes :=
  Enumeration.byte r.transport :: writeEntries r.entries.entries

def readEntry : UInt8 × UInt8 × UInt8 × UInt8 → Except Fault (Mode × ReportEntry)
  | (mode, high, low, report) => do
    let report ← ReportType.ofByte report
    return (mode, ⟨wordOf high low, report⟩)

/-- Reads the value of a reporting record.  The transport is checked before the length, and an
entry's report type before its mode, which must not occur twice. -/
def read (value : Bytes) : Except Fault Reporting :=
  match value with
  | [] => .error (.insufficient 1 0)
  | technology :: rest =>
    match Enumeration.ofByte? technology with
    | none => .error (.badOctet .reportingTechnology technology)
    | some transport =>
      match quads rest with
      | none =>
        .error (.valueLength .reporting (1 + nextMultipleOfFour rest.length) value.length)
      | some entries => do
        let table ←
          Table.collect readEntry (fun m => .payload (.repeatedEntry m)) Table.empty entries
        return ⟨transport, table⟩

end Reporting

end AcousticNode
