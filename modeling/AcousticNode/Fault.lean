import AcousticNode.Module.Code
import AcousticNode.Wire.Address
import AcousticNode.Wire.Opcode
import AcousticNode.Wire.Transport

/-!
# Faults

Everything that can go wrong, by cause.  `Fault.message` is the one place where causes are put
into words.
-/

set_option autoImplicit false

namespace AcousticNode

/-- A part of the hydrophone's state that travels as a record of its own. -/
inductive Aspect where
  | status
  | logging
  | streaming
  | stats
  deriving DecidableEq, Repr

def Aspect.text : Aspect → String
  | status => "status"
  | logging => "logging config"
  | streaming => "streaming config"
  | stats => "recording stats"

/-- An octet whose values are restricted. -/
inductive OctetField where
  | batteryStatus
  | activeModeIndex
  | reportingTechnology
  | recordWaveform
  | processWaveform
  | recordFft
  | processFft
  | errorCode
  deriving DecidableEq, Repr

def OctetField.text : OctetField → String
  | batteryStatus => "battery status"
  | activeModeIndex => "active operation mode index"
  | reportingTechnology => "reporting technology"
  | recordWaveform => "record waveform flag"
  | processWaveform => "process waveform flag"
  | recordFft => "record FFT flag"
  | processFft => "process FFT flag"
  | errorCode => "error code"

/-- What is wrong with the contents of a payload or of a module's value. -/
inductive PayloadFlaw where
  | repeatedRoute (destination : Address)
  | repeatedMode (mode : UInt8)
  | repeatedEntry (mode : UInt8)
  | hydrophoneShape
  | trailing (extra size : Nat)
  | basicReportShape
  | completeReportShape
  | repeatedAspect (aspect : Aspect)
  | notAspect (code : ModuleCode)
  | notConfiguration (code : ModuleCode)
  | statusRequestBody (size : Nat)
  deriving DecidableEq, Repr

def PayloadFlaw.text : PayloadFlaw → String
  | repeatedRoute destination => "duplicate route for " ++ destination.text
  | repeatedMode mode => s!"operation mode {mode} listed twice"
  | repeatedEntry mode => s!"reporting entry for mode {mode} listed twice"
  | hydrophoneShape =>
    "ICListenHF expects status, logging, streaming and stats records in order"
  | trailing extra size => s!"{extra} trailing bytes after a {size} byte payload"
  | basicReportShape => "basic status report expects battery, location and clock modules"
  | completeReportShape =>
    "complete status report expects battery, ambient, location, storage and iClisten modules"
  | repeatedAspect aspect => "iClisten " ++ aspect.text ++ " listed twice"
  | notAspect code => "module " ++ code.name ++ " is not an iClisten aspect"
  | notConfiguration code => "module " ++ code.name ++ " is not a configuration module"
  | statusRequestBody size => s!"status request carries a {size} byte payload"

/-- What is wrong with a configuration or with the medium that holds it. -/
inductive ConfigurationFlaw where
  | emptyGraph
  | undefinedMode (mode next : UInt8)
  | foreignSchedule (transport : Transport)
  | repeatedMode (mode : UInt8)
  | repeatedRoute (destination : Address)
  | repeatedEntry (transport : Transport) (mode : UInt8)
  | readOnly
  | loadSwitchedOff
  | saveSwitchedOff
  deriving DecidableEq, Repr

def ConfigurationFlaw.text : ConfigurationFlaw → String
  | emptyGraph => "operation graph is empty"
  | undefinedMode mode next => s!"mode {mode} transitions to undefined mode {next}"
  | foreignSchedule transport => transport.name ++ " schedule carries another technology"
  | repeatedMode mode => s!"operation graph lists mode {mode} twice"
  | repeatedRoute destination => "routing table lists " ++ destination.text ++ " twice"
  | repeatedEntry transport mode => transport.name ++ s!" schedule lists mode {mode} twice"
  | readOnly => "repository is read-only"
  | loadSwitchedOff => "load switched off"
  | saveSwitchedOff => "save switched off"

/-- The cause of a failure. -/
inductive Fault where
  | addressRange (value : Int)
  | insufficient (expected actual : Nat)
  | unknownOpcode (octet : UInt8)
  | unknownModule (octet : UInt8)
  | unknownReport (octet : UInt8)
  | badOctet (field : OctetField) (octet : UInt8)
  | checksum (expected found : UInt16)
  | valueLength (code : ModuleCode) (expected actual : Nat)
  | valueTooLong (size : Nat)
  | packetTooLong (size limit : Nat)
  | payloadMismatch (op : Opcode)
  | payload (flaw : PayloadFlaw)
  | forbiddenSender (sender : Address)
  | noRequest
  | notCached (aspect : Aspect)
  | configuration (flaw : ConfigurationFlaw)
  /-- The file system refused. -/
  | storage
  /-- A document is malformed, or describes a configuration with the flaw given. -/
  | document (flaw : Option ConfigurationFlaw)
  deriving DecidableEq, Repr

namespace Fault

private def hexOctet (b : UInt8) : String := "0x" ++ Hex.fixed 2 b.toNat

private def hexWord (w : UInt16) : String := "0x" ++ Hex.fixed 4 w.toNat

/-- A fault in words. -/
def message : Fault → String
  | addressRange value => s!"Address value {value} is outside [0, 255]"
  | insufficient expected actual =>
    s!"Insufficient data: expected at least {expected} bytes, got {actual}"
  | unknownOpcode octet => "Invalid operation code: " ++ hexOctet octet
  | unknownModule octet => "Invalid module code: " ++ hexOctet octet
  | unknownReport octet => "Invalid report type: " ++ hexOctet octet
  | badOctet field octet => "Invalid " ++ field.text ++ s!" value: {octet}"
  | checksum expected found =>
    "CRC mismatch: expected " ++ hexWord expected ++ ", found " ++ hexWord found
  | valueLength code expected actual =>
    "Module " ++ code.name ++ s!" has an invalid length: expected {expected} bytes, got {actual}"
  | valueTooLong size => s!"Module value of {size} bytes does not fit a one-byte length field"
  | packetTooLong size limit => s!"Packet of {size} bytes exceeds the {limit} byte limit"
  | payloadMismatch op => "Payload does not match operation code " ++ op.name
  | payload flaw => "Invalid payload: " ++ flaw.text
  | forbiddenSender sender => "Sender " ++ sender.text ++ " may not issue this request"
  | noRequest => "Routine requires an input packet"
  | notCached aspect => "Unavailable: iClisten " ++ aspect.text ++ " not cached"
  | configuration flaw => "Configuration error: " ++ flaw.text
  | storage => "I/O error"
  | document none => "JSON error"
  | document (some flaw) => "JSON error: Configuration error: " ++ flaw.text

end Fault

end AcousticNode
