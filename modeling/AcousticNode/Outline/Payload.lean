import AcousticNode.Outline.Basic
import AcousticNode.Outline.Decimal
import AcousticNode.Payload.Basic

/-!
# Outlines of payloads

Every part of a payload, under the name it goes by in printed frames.
-/

set_option autoImplicit false

namespace AcousticNode

open Outline (word holding parts flag octet)

/-- A number with a sign. -/
private def integer (n : Int) : Outline := word (toString n)

/-- A number of sixteen bits. -/
private def word16 (n : UInt16) : Outline := word (toString n.toNat)

def BatteryStatus.outline : BatteryStatus → Outline
  | error => word "Error"
  | discharging => word "Discharging"
  | charging => word "Charging"
  | idle => word "Idle"
  | full => word "Full"

def ErrorCode.outline : ErrorCode → Outline
  | invalidOpcode => word "InvalidOpcode"
  | invalidPayload => word "InvalidPayload"
  | invalidSender => word "InvalidSenderAddress"
  | invalidRecipient => word "InvalidRecipientAddress"
  | invalidLength => word "InvalidPacketLength"
  | invalidSync => word "InvalidSyncByte"

def ModuleCode.outline : ModuleCode → Outline
  | battery => word "Battery"
  | location => word "Location"
  | network => word "Network"
  | modeList => word "OperationModes"
  | modeGraph => word "OperationModesGraph"
  | reporting => word "Reporting"
  | clock => word "RealTimeClock"
  | storage => word "Storage"
  | ambient => word "Ambient"
  | acoustics => word "PamModule"
  | hydrophone => word "ICListenComplete"
  | hydrophoneStatus => word "ICListenStatus"
  | hydrophoneLogging => word "ICListenLoggingConfig"
  | hydrophoneStreaming => word "ICListenStreamingConfig"
  | hydrophoneStats => word "ICListenRecordingStats"

def Battery.outline (b : Battery) : Outline :=
  parts "BatteryModule" [("percentage", octet b.percentage), ("status", b.status.outline)]

def Location.outline (l : Location) : Outline :=
  parts "LocationModule"
    [("latitude", word l.latitude.text), ("longitude", word l.longitude.text)]

def Clock.outline (c : Clock) : Outline := parts "RtcModule" [("epoch", integer c.epoch.toInt)]

def Storage.outline (s : Storage) : Outline :=
  parts "StorageModule" [("used", integer s.used.toInt), ("total", integer s.total.toInt)]

def Ambient.outline (a : Ambient) : Outline :=
  parts "AmbientModule" [("temperature", octet a.temperature), ("humidity", octet a.humidity)]

def HydrophoneStatus.outline (s : HydrophoneStatus) : Outline :=
  parts "ICListenStatus"
    [("unit_status", octet s.unitStatus),
      ("battery_status", octet s.batteryStatus),
      ("battery_percentage", word s.batteryPercentage.text),
      ("temperature", word s.temperature.text),
      ("humidity", word s.humidity.text),
      ("timestamp", integer s.timestamp.toInt)]

def HydrophoneLogging.outline (c : HydrophoneLogging) : Outline :=
  parts "ICListenLoggingConfig"
    [("gain", word16 c.gain),
      ("waveform_sample_rate", integer c.waveformSampleRate.toInt),
      ("waveform_logging_mode", octet c.waveformLoggingMode),
      ("waveform_log_length", octet c.waveformLogLength),
      ("bit_depth", octet c.bitDepth),
      ("fft_sample_rate", integer c.fftSampleRate.toInt),
      ("fft_processing_type", word16 c.fftProcessingType),
      ("ffts_accumulated", word16 c.fftsAccumulated),
      ("fft_logging_mode", octet c.fftLoggingMode),
      ("fft_log_length", octet c.fftLogLength)]

def HydrophoneStreaming.outline (c : HydrophoneStreaming) : Outline :=
  parts "ICListenStreamingConfig"
    [("record_waveform", flag c.recordWaveform),
      ("process_waveform", flag c.processWaveform),
      ("waveform_processing_type", octet c.waveformProcessingType),
      ("waveform_interval", octet c.waveformInterval),
      ("waveform_duration", octet c.waveformDuration),
      ("record_fft", flag c.recordFft),
      ("process_fft", flag c.processFft),
      ("fft_processing_type", octet c.fftProcessingType),
      ("fft_interval", octet c.fftInterval),
      ("fft_duration", octet c.fftDuration),
      ("timestamp", integer c.timestamp.toInt)]

def HydrophoneStats.outline (s : HydrophoneStats) : Outline :=
  parts "ICListenRecordingStats"
    [("epoch_time", integer s.epochTime.toInt), ("clicks", octet s.clicks),
      ("minutes", octet s.minutes), ("files", octet s.files)]

def Hydrophone.outline (h : Hydrophone) : Outline :=
  parts "ICListenHF"
    [("status", h.status.outline), ("logging", h.logging.outline),
      ("streaming", h.streaming.outline), ("stats", h.stats.outline)]

/-- The four aspects; the other bits of the mask are not shown. -/
def AspectMask.outline (m : AspectMask) : Outline :=
  parts "ICListenAspects"
    [("status", flag (m.selects .status)), ("logging", flag (m.selects .logging)),
      ("streaming", flag (m.selects .streaming)), ("stats", flag (m.selects .stats))]

def HydrophoneUpdate.outline (u : HydrophoneUpdate) : Outline :=
  parts "SetICListenConfigurationPayload"
    [("status", .optional (u.status.map (·.outline))),
      ("logging", .optional (u.logging.map (·.outline))),
      ("streaming", .optional (u.streaming.map (·.outline))),
      ("stats", .optional (u.stats.map (·.outline)))]

def BasicReport.outline (r : BasicReport) : Outline :=
  parts "BasicStatusReportPayload"
    [("battery", r.battery.outline), ("location", r.location.outline),
      ("rtc", r.clock.outline)]

def CompleteReport.outline (r : CompleteReport) : Outline :=
  parts "CompleteStatusReportPayload"
    [("battery", r.battery.outline), ("ambient", r.ambient.outline),
      ("location", r.location.outline), ("storage", r.storage.outline),
      ("pam", r.hydrophone.outline)]

/-- The records stay undecoded. -/
def RecordList.outline (l : RecordList) : Outline :=
  parts "NewNodeConfigurationPayload" [("records", .bytes l.bytes)]

/-- A payload under the name of its kind. -/
def Payload.outline : Payload → Outline
  | empty => word "Empty"
  | error c => holding "Error" (parts "ErrorPayload" [("code", c.outline)])
  | basicReport r => holding "BasicStatusReport" r.outline
  | completeReport r => holding "CompleteStatusReport" r.outline
  | configurationQuery codes =>
    holding "GetUpdatedNodeConfiguration"
      (parts "GetUpdatedNodeConfigurationPayload"
        [("requested", .list (codes.map ModuleCode.outline))])
  | configurationChange l => holding "NewNodeConfiguration" l.outline
  | configurationAnswer l => holding "UpdatedNodeConfiguration" l.outline
  | hydrophoneQuery m =>
    holding "FetchICListenConfiguration"
      (parts "FetchICListenConfigurationPayload" [("aspects", m.outline)])
  | hydrophoneChange u => holding "SetICListenConfiguration" u.outline
  | hydrophoneAnswer u => holding "ICListenConfiguration" u.outline

end AcousticNode
