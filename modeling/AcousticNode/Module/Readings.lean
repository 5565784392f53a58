import AcousticNode.Wire.Layout

/-!
# Readings

What a node reads from its hardware: battery, position, clock, storage and surroundings.  Each
reading has a fixed layout.
-/

set_option autoImplicit false

namespace AcousticNode

/-- What the battery is doing. -/
inductive BatteryStatus where
  | error
  | discharging
  | charging
  | idle
  | full
  deriving DecidableEq, Repr

namespace BatteryStatus

instance : Enumeration BatteryStatus where
  byte
    | error => 0
    | discharging => 1
    | charging => 2
    | idle => 3
    | full => 4
  all := [error, discharging, charging, idle, full]
  mem_all a := by cases a <;> decide
  byte_injective a b := by cases a <;> cases b <;> decide

def text : BatteryStatus → String
  | error => "error"
  | discharging => "discharging"
  | charging => "charging"
  | idle => "idle"
  | full => "full"

/-- The spelling in documents. -/
def keyword : BatteryStatus → String
  | error => "ERROR"
  | discharging => "DISCHARGING"
  | charging => "CHARGING"
  | idle => "IDLE"
  | full => "FULL"

end BatteryStatus

/-- State of charge. -/
structure Battery where
  percentage : UInt8
  status : BatteryStatus
  deriving DecidableEq, Repr

namespace Battery

def layout : Layout Battery :=
  (Layout.octet.seq (.enumerated BatteryStatus .batteryStatus)).rename
    (fun p => ⟨p.1, p.2⟩) (fun b => (b.percentage, b.status)) (fun _ => rfl) (fun _ => rfl)

/-- A battery with a constant state of charge, at most 100 percent. -/
def fixed (percentage : UInt8) (status : BatteryStatus) : Battery :=
  ⟨if percentage ≤ 100 then percentage else 100, status⟩

end Battery

/-- A position in decimal degrees. -/
structure Location where
  latitude : Binary32
  longitude : Binary32
  deriving DecidableEq, Repr

namespace Location

def layout : Layout Location :=
  (Layout.binary32LE.seq .binary32LE).rename
    (fun p => ⟨p.1, p.2⟩) (fun l => (l.latitude, l.longitude)) (fun _ => rfl) (fun _ => rfl)

def numericallyEqual (a b : Location) : Bool :=
  a.latitude.numericallyEqual b.latitude && a.longitude.numericallyEqual b.longitude

end Location

/-- Seconds since the start of 1970. -/
structure Clock where
  epoch : Int64
  deriving DecidableEq, Repr

namespace Clock

def layout : Layout Clock :=
  Layout.int64LE.rename (fun e => ⟨e⟩) (fun c => c.epoch) (fun _ => rfl) (fun _ => rfl)

end Clock

/-- Storage in kilobytes. -/
structure Storage where
  used : Int32
  total : Int32
  deriving DecidableEq, Repr

namespace Storage

def layout : Layout Storage :=
  (Layout.int32LE.seq .int32LE).rename
    (fun p => ⟨p.1, p.2⟩) (fun s => (s.used, s.total)) (fun _ => rfl) (fun _ => rfl)

/-- What a node without a storage sensor reports. -/
def unknown : Storage := ⟨0, 0⟩

end Storage

/-- Surroundings. -/
structure Ambient where
  temperature : UInt8
  humidity : UInt8
  deriving DecidableEq, Repr

namespace Ambient

def layout : Layout Ambient :=
  (Layout.octet.seq .octet).rename
    (fun p => ⟨p.1, p.2⟩) (fun a => (a.temperature, a.humidity)) (fun _ => rfl) (fun _ => rfl)

/-- What a node without an ambient sensor reports. -/
def unknown : Ambient := ⟨0, 0⟩

end Ambient

end AcousticNode
