import AcousticNode.Module.Hydrophone
import AcousticNode.Module.Network
import AcousticNode.Module.Readings
import AcousticNode.Module.Record
import AcousticNode.Module.Reporting

/-!
# Modules

A module is the decoded form of a record.  Fifteen kinds of value share the record frame; the
value of a hydrophone record is itself a sequence of four records, so decoding a value and
decoding a sequence of records call each other; the value of a record is shorter than the
record.
-/

set_option autoImplicit false

namespace AcousticNode

/-- What a record says. -/
inductive Module where
  | battery (reading : Battery)
  | location (reading : Location)
  | network (settings : Network)
  | modeList (list : ModeList)
  | modeGraph (graph : ModeGraph)
  | reporting (schedule : Reporting)
  | clock (reading : Clock)
  | storage (reading : Storage)
  | ambient (reading : Ambient)
  /-- Passive acoustics, whose octets are carried without being read. -/
  | acoustics (value : Bytes)
  | hydrophone (state : Hydrophone)
  | hydrophoneStatus (aspect : HydrophoneStatus)
  | hydrophoneLogging (aspect : HydrophoneLogging)
  | hydrophoneStreaming (aspect : HydrophoneStreaming)
  | hydrophoneStats (aspect : HydrophoneStats)
  deriving DecidableEq

/-- The four aspect records of a hydrophone, one after another. -/
def Hydrophone.write (h : Hydrophone) : Bytes :=
  Record.frame ModuleCode.hydrophoneStatus.byte (HydrophoneStatus.layout.write h.status) ++
  (Record.frame ModuleCode.hydrophoneLogging.byte (HydrophoneLogging.layout.write h.logging) ++
  (Record.frame ModuleCode.hydrophoneStreaming.byte
    (HydrophoneStreaming.layout.write h.streaming) ++
  Record.frame ModuleCode.hydrophoneStats.byte (HydrophoneStats.layout.write h.stats)))

namespace Module

def code : Module → ModuleCode
  | battery _ => .battery
  | location _ => .location
  | network _ => .network
  | modeList _ => .modeList
  | modeGraph _ => .modeGraph
  | reporting _ => .reporting
  | clock _ => .clock
  | storage _ => .storage
  | ambient _ => .ambient
  | acoustics _ => .acoustics
  | hydrophone _ => .hydrophone
  | hydrophoneStatus _ => .hydrophoneStatus
  | hydrophoneLogging _ => .hydrophoneLogging
  | hydrophoneStreaming _ => .hydrophoneStreaming
  | hydrophoneStats _ => .hydrophoneStats

/-- The octets of a module's value. -/
def value : Module → Bytes
  | battery b => Battery.layout.write b
  | location l => Location.layout.write l
  | network n => n.write
  | modeList m => m.write
  | modeGraph g => ModeGraph.write g
  | reporting r => r.write
  | clock c => Clock.layout.write c
  | storage s => Storage.layout.write s
  | ambient a => Ambient.layout.write a
  | acoustics v => v
  | hydrophone h => h.write
  | hydrophoneStatus s => HydrophoneStatus.layout.write s
  | hydrophoneLogging c => HydrophoneLogging.layout.write c
  | hydrophoneStreaming c => HydrophoneStreaming.layout.write c
  | hydrophoneStats s => HydrophoneStats.layout.write s

/-- The record of a module, if its value fits one. -/
def toRecord (m : Module) : Except Fault Record := Record.make m.code m.value

/-- Length of the record of a module. -/
def size (m : Module) : Nat := Limits.recordHeaderSize + m.value.length

/-- The octets of the record of a module whose value fits one. -/
def frame (m : Module) : Bytes := Record.frame m.code.byte m.value

/-- The records of modules back to back.  The first module that does not fit is the fault. -/
def encodeAll : List Module → Except Fault Bytes
  | [] => .ok []
  | m :: ms => do
    let record ← m.toRecord
    let rest ← encodeAll ms
    return record.encode ++ rest

mutual

/-- Decodes a value under a code. -/
def decode (code : ModuleCode) (value : Bytes) : Except Fault Module :=
  match code with
  | .battery => (Battery.layout.readValue .battery value).map battery
  | .location => (Location.layout.readValue .location value).map location
  | .network => (Network.read value).map network
  | .modeList => (ModeList.read value).map modeList
  | .modeGraph => (ModeGraph.read value).map modeGraph
  | .reporting => (Reporting.read value).map reporting
  | .clock => (Clock.layout.readValue .clock value).map clock
  | .storage => (Storage.layout.readValue .storage value).map storage
  | .ambient => (Ambient.layout.readValue .ambient value).map ambient
  | .acoustics => .ok (acoustics value)
  | .hydrophone =>
    match decodeAll value with
    | .ok [hydrophoneStatus status, hydrophoneLogging logging, hydrophoneStreaming streaming,
        hydrophoneStats stats] => .ok (hydrophone ⟨status, logging, streaming, stats⟩)
    | .ok _ => .error (.payload .hydrophoneShape)
    | .error e => .error e
  | .hydrophoneStatus =>
    (HydrophoneStatus.layout.readValue .hydrophoneStatus value).map hydrophoneStatus
  | .hydrophoneLogging =>
    (HydrophoneLogging.layout.readValue .hydrophoneLogging value).map hydrophoneLogging
  | .hydrophoneStreaming =>
    (HydrophoneStreaming.layout.readValue .hydrophoneStreaming value).map hydrophoneStreaming
  | .hydrophoneStats =>
    (HydrophoneStats.layout.readValue .hydrophoneStats value).map hydrophoneStats
termination_by (value.length, 1)

/-- Decodes back-to-back records up to the end.  The first record that is cut short, unknown
or undecodable is the fault. -/
def decodeAll (bs : Bytes) : Except Fault (List Module) :=
  if bs.isEmpty then .ok []
  else
    match h : Record.take bs with
    | (.error e, _) => .error e
    | (.ok record, rest) =>
      have := Record.length_of_take h
      have : 2 ≤ record.size := by simp only [Record.size, Limits.recordHeaderSize]; omega
      have : record.value.length < record.size := by
        simp only [Record.size, Limits.recordHeaderSize]; omega
      match decode record.code record.value with
      | .error e => .error e
      | .ok m =>
        match decodeAll rest with
        | .error e => .error e
        | .ok ms => .ok (m :: ms)
termination_by (bs.length, 0)

end

/-- Takes the module of the first record.  The record is gone even if its value does not
decode. -/
def take (bs : Bytes) : Except Fault Module × Bytes :=
  match Record.take bs with
  | (.error e, rest) => (.error e, rest)
  | (.ok record, rest) => (decode record.code record.value, rest)

end Module

namespace HydrophoneUpdate

/-- The modules of the aspects that are there: status, logging, streaming, statistics. -/
def modules (u : HydrophoneUpdate) : List Module :=
  (u.status.map Module.hydrophoneStatus).toList ++ (u.logging.map Module.hydrophoneLogging).toList
    ++ (u.streaming.map Module.hydrophoneStreaming).toList
    ++ (u.stats.map Module.hydrophoneStats).toList

/-- Adds an aspect that is not there yet. -/
def place (u : HydrophoneUpdate) : Module → Except Fault HydrophoneUpdate
  | .hydrophoneStatus s =>
    if u.status.isSome then .error (.payload (.repeatedAspect .status))
    else .ok { u with status := some s }
  | .hydrophoneLogging c =>
    if u.logging.isSome then .error (.payload (.repeatedAspect .logging))
    else .ok { u with logging := some c }
  | .hydrophoneStreaming c =>
    if u.streaming.isSome then .error (.payload (.repeatedAspect .streaming))
    else .ok { u with streaming := some c }
  | .hydrophoneStats s =>
    if u.stats.isSome then .error (.payload (.repeatedAspect .stats))
    else .ok { u with stats := some s }
  | other => .error (.payload (.notAspect other.code))

/-- Adds aspects one after another. -/
def placeAll (u : HydrophoneUpdate) : List Module → Except Fault HydrophoneUpdate
  | [] => .ok u
  | m :: ms => do
    let u ← u.place m
    placeAll u ms

/-- The aspects in any order, each at most once. -/
def ofModules (ms : List Module) : Except Fault HydrophoneUpdate := placeAll empty ms

end HydrophoneUpdate

end AcousticNode
