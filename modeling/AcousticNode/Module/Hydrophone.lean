import AcousticNode.Wire.Layout

/-!
# The hydrophone

The acoustic logger has four aspects, each with a fixed layout of its own: status, logging
configuration, streaming configuration and recording statistics.  `Hydrophone` holds all four,
`HydrophoneUpdate` any of them, and `AspectMask` names any of them.
-/

set_option autoImplicit false

namespace AcousticNode

/-- Status of the logger itself. -/
structure HydrophoneStatus where
  unitStatus : UInt8
  batteryStatus : UInt8
  batteryPercentage : Binary64
  temperature : Binary64
  humidity : Binary64
  timestamp : Int64
  deriving DecidableEq, Repr

namespace HydrophoneStatus

def layout : Layout HydrophoneStatus :=
  (Layout.octet.seq <| Layout.octet.seq <| Layout.binary64LE.seq <| Layout.binary64LE.seq <|
    Layout.binary64LE.seq .int64LE).rename
    (fun (unit, battery, percentage, temperature, humidity, time) =>
      ⟨unit, battery, percentage, temperature, humidity, time⟩)
    (fun s => (s.unitStatus, s.batteryStatus, s.batteryPercentage, s.temperature, s.humidity,
      s.timestamp))
    (fun _ => rfl) (fun _ => rfl)

def numericallyEqual (a b : HydrophoneStatus) : Bool :=
  a.unitStatus == b.unitStatus && a.batteryStatus == b.batteryStatus &&
    a.batteryPercentage.numericallyEqual b.batteryPercentage &&
    a.temperature.numericallyEqual b.temperature && a.humidity.numericallyEqual b.humidity &&
    a.timestamp == b.timestamp

end HydrophoneStatus

/-- How the logger writes waveforms and spectra. -/
structure HydrophoneLogging where
  gain : UInt16
  waveformSampleRate : Int32
  waveformLoggingMode : UInt8
  waveformLogLength : UInt8
  bitDepth : UInt8
  fftSampleRate : Int32
  fftProcessingType : UInt16
  fftsAccumulated : UInt16
  fftLoggingMode : UInt8
  fftLogLength : UInt8
  deriving DecidableEq, Repr

namespace HydrophoneLogging

def layout : Layout HydrophoneLogging :=
  (Layout.wordBE.seq <| Layout.int32BE.seq <| Layout.octet.seq <| Layout.octet.seq <|
    Layout.octet.seq <| Layout.int32BE.seq <| Layout.wordBE.seq <| Layout.wordBE.seq <|
    Layout.octet.seq .octet).rename
    (fun (gain, waveRate, waveMode, waveLength, depth, fftRate, fftType, ffts, fftMode,
      fftLength) =>
      ⟨gain, waveRate, waveMode, waveLength, depth, fftRate, fftType, ffts, fftMode, fftLength⟩)
    (fun c => (c.gain, c.waveformSampleRate, c.waveformLoggingMode, c.waveformLogLength,
      c.bitDepth, c.fftSampleRate, c.fftProcessingType, c.fftsAccumulated, c.fftLoggingMode,
      c.fftLogLength))
    (fun _ => rfl) (fun _ => rfl)

end HydrophoneLogging

/-- What the logger streams. -/
structure HydrophoneStreaming where
  recordWaveform : Bool
  processWaveform : Bool
  waveformProcessingType : UInt8
  waveformInterval : UInt8
  waveformDuration : UInt8
  recordFft : Bool
  processFft : Bool
  fftProcessingType : UInt8
  fftInterval : UInt8
  fftDuration : UInt8
  timestamp : Int64
  deriving DecidableEq, Repr

namespace HydrophoneStreaming

def layout : Layout HydrophoneStreaming :=
  ((Layout.enumerated Bool .recordWaveform).seq <|
    (Layout.enumerated Bool .processWaveform).seq <| Layout.octet.seq <| Layout.octet.seq <|
    Layout.octet.seq <| (Layout.enumerated Bool .recordFft).seq <|
    (Layout.enumerated Bool .processFft).seq <| Layout.octet.seq <| Layout.octet.seq <|
    Layout.octet.seq .int64LE).rename
    (fun (recordWave, processWave, waveType, waveInterval, waveDuration, recordFft, processFft,
      fftType, fftInterval, fftDuration, time) =>
      ⟨recordWave, processWave, waveType, waveInterval, waveDuration, recordFft, processFft,
        fftType, fftInterval, fftDuration, time⟩)
    (fun c => (c.recordWaveform, c.processWaveform, c.waveformProcessingType,
      c.waveformInterval, c.waveformDuration, c.recordFft, c.processFft, c.fftProcessingType,
      c.fftInterval, c.fftDuration, c.timestamp))
    (fun _ => rfl) (fun _ => rfl)

end HydrophoneStreaming

/-- Recording counters since an instant. -/
structure HydrophoneStats where
  epochTime : Int64
  clicks : UInt8
  minutes : UInt8
  files : UInt8
  deriving DecidableEq, Repr

namespace HydrophoneStats

def layout : Layout HydrophoneStats :=
  (Layout.int64LE.seq <| Layout.octet.seq <| Layout.octet.seq .octet).rename
    (fun (time, clicks, minutes, files) => ⟨time, clicks, minutes, files⟩)
    (fun s => (s.epochTime, s.clicks, s.minutes, s.files))
    (fun _ => rfl) (fun _ => rfl)

end HydrophoneStats

/-- The whole state of the logger. -/
structure Hydrophone where
  status : HydrophoneStatus
  logging : HydrophoneLogging
  streaming : HydrophoneStreaming
  stats : HydrophoneStats
  deriving DecidableEq, Repr

def Hydrophone.numericallyEqual (a b : Hydrophone) : Bool :=
  a.status.numericallyEqual b.status && a.logging == b.logging && a.streaming == b.streaming &&
    a.stats == b.stats

/-- A selection of aspects, one bit each, in an octet whose high half is carried along. -/
structure AspectMask where
  octet : UInt8
  deriving DecidableEq, Repr

namespace AspectMask

/-- The bit of an aspect. -/
def bit : Aspect → UInt8
  | .status => 1
  | .logging => 2
  | .streaming => 4
  | .stats => 8

/-- Whether an aspect is selected. -/
def selects (m : AspectMask) (a : Aspect) : Bool := m.octet &&& bit a != 0

/-- Every aspect and nothing else. -/
def all : AspectMask := ⟨0x0f⟩

/-- Whether no aspect is selected. -/
def isEmpty (m : AspectMask) : Bool :=
  !(m.selects .status || m.selects .logging || m.selects .streaming || m.selects .stats)

/-- The selection with one aspect changed. -/
def flip (m : AspectMask) (a : Aspect) : AspectMask := ⟨m.octet ^^^ bit a⟩

/-- Only the aspects, without the high half. -/
def low (m : AspectMask) : AspectMask := ⟨m.octet &&& 0x0f⟩

end AspectMask

/-- Any of the four aspects. -/
structure HydrophoneUpdate where
  status : Option HydrophoneStatus
  logging : Option HydrophoneLogging
  streaming : Option HydrophoneStreaming
  stats : Option HydrophoneStats
  deriving DecidableEq, Repr

namespace HydrophoneUpdate

/-- No aspect. -/
def empty : HydrophoneUpdate := ⟨none, none, none, none⟩

/-- The aspects that are there. -/
def mask (u : HydrophoneUpdate) : AspectMask :=
  ⟨(if u.status.isSome then 1 else 0) ||| (if u.logging.isSome then 2 else 0) |||
    (if u.streaming.isSome then 4 else 0) ||| (if u.stats.isSome then 8 else 0)⟩

def numericallyEqual (a b : HydrophoneUpdate) : Bool :=
  (match a.status, b.status with
    | some x, some y => x.numericallyEqual y
    | none, none => true
    | _, _ => false) &&
    a.logging == b.logging && a.streaming == b.streaming && a.stats == b.stats

end HydrophoneUpdate

end AcousticNode
