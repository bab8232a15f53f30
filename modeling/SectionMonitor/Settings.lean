import SectionMonitor.Text.Blank
import SectionMonitor.Volume

/-!
# Settings

A monitor is set up once: how volumes are measured, how much a report shows and in which order.
The settings can be read from three environment variables. A value may be surrounded by blanks
and written in any case; one that names nothing is reported and the default is used.
-/

namespace SectionMonitor

/-- How much a report shows. Every level includes the ones before it. -/
inductive ReportLevel where
  /-- One line per section. -/
  | basic
  /-- Also the share of every process. -/
  | detail
  /-- Also the hardware counters. -/
  | full
  deriving DecidableEq, Repr

namespace ReportLevel

/-- The position of a level among the levels. -/
def rank : ReportLevel → Nat
  | .basic => 0
  | .detail => 1
  | .full => 2

/-- Whether a report of this level includes what `part` shows. -/
def includes (level part : ReportLevel) : Bool := part.rank ≤ level.rank

/-- The name in log records. -/
def tag : ReportLevel → String
  | .basic => "Basic"
  | .detail => "Detail"
  | .full => "Full"

end ReportLevel

/-- In which order a report lists the exclusive sections. -/
inductive ReportOrder where
  /-- The slowest first. -/
  | byTime
  /-- As they were registered. -/
  | byRegistration
  deriving DecidableEq, Repr

/-- The name in log records. -/
def ReportOrder.tag : ReportOrder → String
  | .byTime => "ByTime"
  | .byRegistration => "ByRegistration"

/-- What is decided about a monitor before it is built. -/
structure Settings where
  volumeMode : VolumeMode := .user
  reportLevel : ReportLevel := .basic
  reportOrder : ReportOrder := .byTime
  deriving DecidableEq, Repr

/-- All settings, as a log record shows them. -/
def Settings.tag (s : Settings) : String :=
  "MonitorConfig \x7b volume_mode: " ++ s.volumeMode.tag ++ ", report_level: " ++
    s.reportLevel.tag ++ ", report_order: " ++ s.reportOrder.tag ++ " \x7d"

/-! ## Reading values -/

/-- A value as it is compared with the known ones. -/
def Settings.normalizeValue (value : String) : String := Text.lowerAscii (Text.trimBlank value)

/-- The volume mode that a value names. -/
def VolumeMode.parse? (value : String) : Option VolumeMode :=
  match Settings.normalizeValue value with
  | "user" => some .user
  | "time" => some .timeOnly
  | "none" => some .timeOnly
  | "flops" => some (.counters .flops)
  | "bandwidth" => some (.counters .bandwidth)
  | "vector" => some (.counters .vectorization)
  | "cache" => some (.counters .cache)
  | "cycle" => some (.counters .cycles)
  | "loadstore" => some (.counters .loadStore)
  | _ => none

/-- The level that a value names. -/
def ReportLevel.parse? (value : String) : Option ReportLevel :=
  match Settings.normalizeValue value with
  | "basic" => some .basic
  | "detail" => some .detail
  | "full" => some .full
  | _ => none

/-- The order that a value names. -/
def ReportOrder.parse? (value : String) : Option ReportOrder :=
  match Settings.normalizeValue value with
  | "time" => some .byTime
  | "registration" => some .byRegistration
  | _ => none

/-! ## Reading the environment -/

/-- One of the environment variables that hold settings. -/
inductive Setting where
  | volume
  | report
  | order
  deriving DecidableEq, Repr

namespace Setting

/-- The name of the variable in the environment. -/
def key : Setting → String
  | .volume => "PERF_SECTIONS_VOLUME"
  | .report => "PERF_SECTIONS_REPORT"
  | .order => "PERF_SECTIONS_ORDER"

/-- What is said about a value that names nothing. -/
def complaint : Setting → String
  | .volume => "unknown volume mode, measuring user volumes"
  | .report => "unknown report level, using basic report"
  | .order => "unknown report order, ordering by time"

end Setting

/-- A variable whose value names nothing. -/
structure UnknownValue where
  setting : Setting
  value : String
  deriving DecidableEq, Repr

/-- Reads one variable. An unset variable means the default and so does an unknown value, but the
latter is reported. -/
def Setting.read {α : Type} (setting : Setting) (environment : String → Option String)
    (parse? : String → Option α) (default : α) : α × List UnknownValue :=
  match environment setting.key with
  | none => (default, [])
  | some value =>
    match parse? value with
    | some a => (a, [])
    | none => (default, [⟨setting, value⟩])

/-- The settings in an environment, and the unknown values in the order of the variables. -/
def Settings.read (environment : String → Option String) : Settings × List UnknownValue :=
  let (volumeMode, unknown₁) := Setting.volume.read environment VolumeMode.parse? .user
  let (reportLevel, unknown₂) := Setting.report.read environment ReportLevel.parse? .basic
  let (reportOrder, unknown₃) := Setting.order.read environment ReportOrder.parse? .byTime
  (⟨volumeMode, reportLevel, reportOrder⟩, unknown₁ ++ unknown₂ ++ unknown₃)

end SectionMonitor
