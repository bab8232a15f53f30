import SectionMonitor.Section
import SectionMonitor.Settings
import SectionMonitor.Text.Quoted
import SectionMonitor.Violation

/-!
# The log

A monitor tells what it does: notices for the reader of a log, and the readings that it takes from
the counter adapter. Both are kept in one list, in the order in which they happen.
-/

namespace SectionMonitor

/-! ## Notices -/

/-- What a monitor tells the reader of its log. -/
inductive Notice where
  /-- The environment holds a value that names nothing. -/
  | unknownValue (unknown : UnknownValue)
  /-- Hardware counters are read. -/
  | countersActive (events : List String)
  /-- The adapter has no events to count. -/
  | countersDisabled
  /-- The monitor was built. -/
  | created (settings : Settings)
  /-- A label was used for the first time. -/
  | registered (label : String) (index : Index) (source : VolumeSource)
  /-- A section was bound to properties by name. -/
  | bound (label : String) (properties : Properties)
  /-- An interval was opened. -/
  | started (label : String)
  /-- An interval was closed. -/
  | stopped (label : String) (elapsed : Duration) (volume : Float)
  /-- A section was emptied. -/
  | cleared (label : String)
  /-- All sections were forgotten. -/
  | allCleared
  /-- Replicas were folded back. -/
  | merged (replicas : Nat)
  /-- The processes agree on the sections and begin to hand over their numbers. -/
  | gathering (sections processes rank : Nat)
  /-- A process counts other hardware events than rank zero. -/
  | eventsDiffer (rank : Nat) (own agreed : List String)
  /-- A process other than rank zero has handed over its numbers. -/
  | sent (rank : Nat)
  /-- The processes finished a section differently often. -/
  | callsDiffer (label : String) (calls : List Count)
  /-- Rank zero knows the numbers of all processes. -/
  | gathered (totalTime : Float) (ranked : Nat)
  deriving DecidableEq, Repr

/-- How important a notice is. -/
inductive Severity where
  | trace
  | debug
  | warn
  deriving DecidableEq, Repr

/-- The name in log records. -/
def Severity.name : Severity → String
  | .trace => "TRACE"
  | .debug => "DEBUG"
  | .warn => "WARN"

/-- The value of a field: a text, or a number that is kept exact. -/
inductive FieldValue where
  | text (s : String)
  | number (x : Float)
  deriving DecidableEq, Repr

namespace Notice

/-- The written form of a list of event names. -/
def quotedNames (names : List String) : String := Text.bracketed (names.map Text.quoted)

/-- The written form of a list of counts. -/
def countList (counts : List Count) : String :=
  Text.bracketed (counts.map fun c ↦ Nat.repr c.toNat)

/-- How important the notice is. Sections are started and stopped often. -/
def severity : Notice → Severity
  | .unknownValue _ => .warn
  | .callsDiffer .. => .warn
  | .started _ => .trace
  | .stopped .. => .trace
  | _ => .debug

/-- The text of the notice, without its details. -/
def message : Notice → String
  | .unknownValue unknown => unknown.setting.complaint
  | .countersActive _ => "hardware counters active"
  | .countersDisabled => "counter adapter has no measurable events, counters disabled"
  | .created _ => "monitor context created"
  | .registered .. => "section registered"
  | .bound .. => "section properties bound"
  | .started _ => "section started"
  | .stopped .. => "section stopped"
  | .cleared _ => "section reset"
  | .allCleared => "all sections reset"
  | .merged _ => "thread-private sections merged"
  | .gathering .. => "gathering section statistics"
  | .eventsDiffer .. => "counter events differ from rank 0, reporting rank 0 events"
  | .sent _ => "section statistics sent to rank 0"
  | .callsDiffer .. => "call counts differ between processes, section statistics omitted"
  | .gathered .. => "section statistics gathered"

/-- The named details of a notice, in a fixed order. -/
def fields : Notice → List (String × FieldValue)
  | .unknownValue unknown => [("key", .text unknown.setting.key), ("value", .text unknown.value)]
  | .countersActive events => [("events", .text (quotedNames events))]
  | .countersDisabled => []
  | .created settings => [("config", .text settings.tag)]
  | .registered label index source =>
    [("label", .text label), ("index", .text (Nat.repr index.place)),
      ("volume_source", .text source.tag)]
  | .bound label properties =>
    [("label", .text label), ("kind", .text properties.kind.name),
      ("exclusive", .text properties.exclusiveName)]
  | .started label => [("label", .text label)]
  | .stopped label elapsed volume =>
    [("label", .text label), ("elapsed_secs", .number elapsed.seconds),
      ("volume", .number volume)]
  | .cleared label => [("label", .text label)]
  | .allCleared => []
  | .merged replicas => [("replicas", .text (Nat.repr replicas))]
  | .gathering sections processes rank =>
    [("sections", .text (Nat.repr sections)), ("processes", .text (Nat.repr processes)),
      ("rank", .text (Nat.repr rank))]
  | .eventsDiffer rank own agreed =>
    [("rank", .text (Nat.repr rank)), ("local", .text (quotedNames own)),
      ("agreed", .text (quotedNames agreed))]
  | .sent rank => [("rank", .text (Nat.repr rank))]
  | .callsDiffer label calls => [("label", .text label), ("calls", .text (countList calls))]
  | .gathered totalTime ranked =>
    [("total_time", .number totalTime), ("ranked", .text (Nat.repr ranked))]

end Notice

/-! ## Counter readings -/

/-- What a monitor asks of the counter adapter. -/
inductive AdapterCall where
  /-- Which events can be counted? -/
  | events
  /-- What do the counters of a thread show? -/
  | read (thread : Nat)
  /-- How far have the counters of a thread advanced since a snapshot? -/
  | advance (snapshot : Snapshot)
  /-- Which volume do the counted events amount to? -/
  | derive (mode : CounterMode) (counted : Reading)
  deriving DecidableEq, Repr

/-- One entry of the log. -/
inductive LogEntry where
  | notice (n : Notice)
  | adapter (call : AdapterCall)
  deriving DecidableEq, Repr

end SectionMonitor
