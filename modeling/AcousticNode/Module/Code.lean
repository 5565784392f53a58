import AcousticNode.Bytes.Enumeration

/-!
# Module codes

The tag of a record says what its value describes.
-/

set_option autoImplicit false

namespace AcousticNode

/-- What a record's value describes. -/
inductive ModuleCode where
  | battery
  | location
  | network
  | modeList
  | modeGraph
  | reporting
  | clock
  | storage
  | ambient
  | acoustics
  | hydrophone
  | hydrophoneStatus
  | hydrophoneLogging
  | hydrophoneStreaming
  | hydrophoneStats
  deriving DecidableEq, Repr

namespace ModuleCode

/-- The octets are letters: `B L N O G P R S T M i s l c r`. -/
instance : Enumeration ModuleCode where
  byte
    | battery => 0x42
    | location => 0x4c
    | network => 0x4e
    | modeList => 0x4f
    | modeGraph => 0x47
    | reporting => 0x50
    | clock => 0x52
    | storage => 0x53
    | ambient => 0x54
    | acoustics => 0x4d
    | hydrophone => 0x69
    | hydrophoneStatus => 0x73
    | hydrophoneLogging => 0x6c
    | hydrophoneStreaming => 0x63
    | hydrophoneStats => 0x72
  all := [battery, location, network, modeList, modeGraph, reporting, clock, storage, ambient,
    acoustics, hydrophone, hydrophoneStatus, hydrophoneLogging, hydrophoneStreaming,
    hydrophoneStats]
  mem_all a := by cases a <;> decide
  byte_injective a b := by cases a <;> cases b <;> decide

/-- The tag of a module code. -/
abbrev byte (c : ModuleCode) : UInt8 := Enumeration.byte c

def name : ModuleCode → String
  | battery => "BATTERY"
  | location => "LOCATION"
  | network => "NETWORK"
  | modeList => "OPERATION_MODES"
  | modeGraph => "OPERATION_MODES_GRAPH"
  | reporting => "REPORTING"
  | clock => "REAL_TIME_CLOCK"
  | storage => "STORAGE"
  | ambient => "AMBIENT"
  | acoustics => "PAM_MODULE"
  | hydrophone => "ICLISTEN_COMPLETE"
  | hydrophoneStatus => "ICLISTEN_STATUS"
  | hydrophoneLogging => "ICLISTEN_LOGGING_CONFIG"
  | hydrophoneStreaming => "ICLISTEN_STREAMING_CONFIG"
  | hydrophoneStats => "ICLISTEN_RECORDING_STATS"

end ModuleCode

end AcousticNode
