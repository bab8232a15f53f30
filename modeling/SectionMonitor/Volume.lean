/-!
# Volumes

The volume of a section is the work done in it: bytes moved or arithmetic operations done. A mode,
set once for a monitor, decides where volumes come from. A speed is a volume per second, shown in
the largest unit that keeps it at one or above.
-/

namespace SectionMonitor

/-! ## Kinds of work -/

/-- What a section spends its time on. -/
inductive Kind where
  /-- Data movement between processes; its volume is in bytes. -/
  | communication
  /-- Arithmetic; its volume is in floating-point operations. -/
  | computation
  deriving DecidableEq, Repr

/-- The name for readers. -/
def Kind.name : Kind → String
  | .communication => "communication"
  | .computation => "computation"

/-! ## Where volumes come from -/

/-- The group of hardware events that a volume is derived from. -/
inductive CounterMode where
  | flops
  | bandwidth
  | vectorization
  | cache
  | cycles
  | loadStore
  deriving DecidableEq, Repr

namespace CounterMode

/-- The name for readers. -/
def name : CounterMode → String
  | .flops => "flops"
  | .bandwidth => "bandwidth"
  | .vectorization => "vectorization"
  | .cache => "cache"
  | .cycles => "cycles"
  | .loadStore => "load-store"

/-- The name in log records. -/
def tag : CounterMode → String
  | .flops => "Flops"
  | .bandwidth => "Bandwidth"
  | .vectorization => "Vectorization"
  | .cache => "Cache"
  | .cycles => "Cycles"
  | .loadStore => "LoadStore"

/-- The kind of work that the derived volume measures: bandwidth counts bytes. -/
def unitKind : CounterMode → Kind
  | .bandwidth => .communication
  | _ => .computation

end CounterMode

/-- How the volumes of a monitor's sections are measured. -/
inductive VolumeMode where
  /-- The measured program states the volume of every interval. -/
  | user
  /-- No volumes. -/
  | timeOnly
  /-- Volumes are derived from hardware counters. -/
  | counters (mode : CounterMode)
  deriving DecidableEq, Repr

namespace VolumeMode

/-- The name for readers. -/
def name : VolumeMode → String
  | .user => "user-supplied volumes"
  | .timeOnly => "time only"
  | .counters mode => mode.name ++ " counters"

/-- The name in log records. -/
def tag : VolumeMode → String
  | .user => "User"
  | .timeOnly => "TimeOnly"
  | .counters mode => "Counters(" ++ mode.tag ++ ")"

end VolumeMode

/-- Where the volume of one section comes from. -/
inductive VolumeSource where
  | userSupplied
  | adapterDerived (mode : CounterMode)
  | timeOnly
  deriving DecidableEq, Repr

namespace VolumeSource

/-- The source for a mode. Without counters to read, a counter mode falls back to the volumes that
the measured program states. -/
def resolve (mode : VolumeMode) (countersActive : Bool) : VolumeSource :=
  match mode with
  | .counters counterMode => if countersActive then .adapterDerived counterMode else .userSupplied
  | .user => .userSupplied
  | .timeOnly => .timeOnly

/-- The name in log records. -/
def tag : VolumeSource → String
  | .userSupplied => "UserSupplied"
  | .adapterDerived mode => "AdapterDerived(" ++ mode.tag ++ ")"
  | .timeOnly => "TimeOnly"

end VolumeSource

/-! ## Units of speed -/

/-- A power of a thousand, from a million up. -/
inductive Scale where
  | mega
  | giga
  | tera
  | peta
  deriving DecidableEq, Repr

namespace Scale

/-- The power that a unit of this scale stands for. -/
def factor : Scale → Float
  | .mega => 1e6
  | .giga => 1e9
  | .tera => 1e12
  | .peta => 1e15

/-- The largest scale that a magnitude reaches. What is below a million, or no number, is shown in
millions. -/
def ofMagnitude (magnitude : Float) : Scale :=
  if magnitude ≥ factor .peta then .peta
  else if magnitude ≥ factor .tera then .tera
  else if magnitude ≥ factor .giga then .giga
  else .mega

end Scale

/-- A unit of speed. -/
structure SpeedUnit where
  scale : Scale
  kind : Kind
  deriving DecidableEq, Repr

/-- The name of the unit in a report. -/
def SpeedUnit.label (unit : SpeedUnit) : String :=
  match unit.kind, unit.scale with
  | .communication, .mega => "MB/sec"
  | .communication, .giga => "GB/sec"
  | .communication, .tera => "TB/sec"
  | .communication, .peta => "PB/sec"
  | .computation, .mega => "Mflops"
  | .computation, .giga => "Gflops"
  | .computation, .tera => "Tflops"
  | .computation, .peta => "Pflops"

/-- A speed in a unit chosen for reading. -/
structure Speed where
  /-- How many of the unit. -/
  amount : Float
  unit : SpeedUnit
  deriving DecidableEq, Repr

/-- Expresses a plain number of bytes or operations per second in the unit that suits it. -/
def Speed.normalize (perSecond : Float) (kind : Kind) : Speed :=
  let scale := Scale.ofMagnitude perSecond.abs
  ⟨perSecond / scale.factor, ⟨scale, kind⟩⟩

end SectionMonitor
