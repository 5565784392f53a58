import AcousticNode.Calendar
import AcousticNode.CommandLine.Arguments
import AcousticNode.CommandLine.HexArgument
import AcousticNode.Outline.Payload

/-!
# The command line

Shows what octets mean and which octets a request has.  Everything it prints is a value, so
that a run is a function of its arguments.
-/

set_option autoImplicit false

namespace AcousticNode

/-- What a run prints and how it ends. -/
structure Outcome where
  exit : UInt32
  stdout : String
  stderr : String
  deriving DecidableEq

namespace CommandLine

/-- A run that did its work. -/
def success (stdout : String) : Outcome := ⟨0, stdout, ""⟩

/-- A run that failed. -/
def failure (reason : String) : Outcome := ⟨1, "", "Error: " ++ reason ++ "\n"⟩

/-- How to call the command line. -/
def usage : String :=
  "usage: decode HEX\n" ++
    "       crc HEX\n" ++
    "       request status|complete|get-config|iclisten [-a ADDRESS] [-m MODULES] [--aspects MASK]\n"

/-- A run whose arguments are no command. -/
def misuse : Outcome := ⟨2, "", usage⟩

/-- The argument is not hexadecimal. -/
def hexFailure (argument : String) (flaw : Hex.Flaw) : Outcome :=
  failure ("Invalid hex: " ++ argument ++ "\n\nCaused by:\n    " ++ flaw.text)

/-- Octets in hexadecimal that an argument spells, handed on. -/
def withHex (argument : String) (f : Bytes → Outcome) : Outcome :=
  match readHexArgument argument with
  | .ok octets => f octets
  | .error flaw => hexFailure argument flaw

/-- The date of a basic report, if its clock is within the range of dates. -/
def clockLine : Payload → String
  | .basicReport r =>
    match Calendar.text? r.clock.epoch.toInt with
    | some time => "  Clock: " ++ time ++ "\n"
    | none => ""
  | _ => ""

/-- A packet over several lines. -/
def packetText (p : Packet) : String :=
  p.text ++ "\n" ++
    "  Routing: " ++ p.routing.text ++ "\n" ++
    "  Payload: " ++ p.payload.outline.text ++ "\n" ++
    clockLine p.payload

/-- Shows a frame. -/
def showFrame (octets : Bytes) : Outcome :=
  match Frame.ofBytes octets with
  | .valid p => success (packetText p)
  | .invalid raw reason =>
    failure ("Invalid frame (" ++ toString raw.length ++ " bytes): " ++ reason.message)

/-- Shows a checksum, and the octets with the checksum behind them. -/
def showChecksum (octets : Bytes) : Outcome :=
  success ("CRC: 0x" ++ Hex.fixed 4 (Checksum.compute octets).toNat ++ "\n" ++
    "Frame: " ++ Hex.encode (Checksum.append octets) ++ "\n")

/-- Shows the packet of a request. -/
def showRequest (r : Request) : Outcome :=
  match r.packet with
  | .ok p => success (p.hex ++ "\n")
  | .error e => failure e.message

/-- Carries out a command. -/
def perform : Command → Outcome
  | .decode argument => withHex argument showFrame
  | .checksum argument => withHex argument showChecksum
  | .request r => showRequest r

/-- What the command line does with its arguments. -/
def run (args : List String) : Outcome :=
  match command? args with
  | some c => perform c
  | none => misuse

end CommandLine

end AcousticNode
