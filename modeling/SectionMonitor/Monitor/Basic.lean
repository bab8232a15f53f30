import SectionMonitor.Log
import SectionMonitor.Registry
import SectionMonitor.Surroundings
import SectionMonitor.Trace

/-!
# Monitors

A monitor holds the sections of one process, or of one thread of it. Sections are addressed by
label; the first use of a label registers a section with default properties. At most one
exclusive section runs at a time: the one that holds the monitor's token.

Every operation yields an outcome: a result or a violation, the monitor afterwards, and what was
logged. A violation can leave traces in the monitor, so the monitor afterwards is part of the
outcome in both cases.
-/

namespace SectionMonitor

/-- Which threads' counters a monitor reads. -/
inductive Scope where
  /-- Those of the whole team. -/
  | process
  /-- Those of one thread. -/
  | thread (number : Nat)
  deriving DecidableEq, Repr

/-- The sections of one process or thread. -/
structure Monitor where
  settings : Settings
  /-- The hardware events that are counted; none if there are no counters to read. -/
  events : List String
  scope : Scope
  registry : Registry := {}
  /-- The section that spans the life of the monitor. -/
  rootSection : Section
  /-- All other sections, in the order of their handles. -/
  sections : List Section := []
  /-- The exclusive section that runs, if any. -/
  token : Option Index := none
  /-- The timeline, if one is recorded. -/
  trace : Option Trace := none
  /-- Whether statistics have been gathered. -/
  gathered : Bool := false
  deriving DecidableEq, Repr

/-- What an operation leads to. -/
structure Outcome (α : Type) where
  result : Except Violation α
  monitor : Monitor
  log : List LogEntry

namespace Outcome

/-- A result with the notices that were written on the way. -/
def success {α : Type} (a : α) (m : Monitor) (notices : List Notice) : Outcome α :=
  ⟨.ok a, m, notices.map .notice⟩

/-- A violation with the notices that were written before it was found. -/
def refusal {α : Type} (v : Violation) (m : Monitor) (notices : List Notice) : Outcome α :=
  ⟨.error v, m, notices.map .notice⟩

end Outcome

namespace Monitor

/-! ## Looking at a monitor -/

/-- Whether there are hardware counters to read. -/
def countersActive (m : Monitor) : Bool := !m.events.isEmpty

/-- The handle of a registered label. -/
def lookup (m : Monitor) (label : String) : Option Index := m.registry.lookup label

/-- The label of a handle. -/
def label? (m : Monitor) (i : Index) : Option String := m.registry.label? i

/-- The section with a handle. -/
def sectionAt? (m : Monitor) : Index → Option Section
  | ⟨0⟩ => some m.rootSection
  | ⟨i + 1⟩ => m.sections[i]?

/-- The section with a handle that is known to be in use. -/
def sectionAt (m : Monitor) (i : Index) : Section := (m.sectionAt? i).getD m.rootSection

/-- The section with a label, and its handle. -/
def find? (m : Monitor) (label : String) : Option (Index × Section) :=
  (m.lookup label).map fun i ↦ (i, m.sectionAt i)

/-- The first section, after the root section, that runs. -/
def running? (m : Monitor) : Option Section := m.sections.find? Section.isRunning

/-! ## Changing a monitor -/

/-- Replaces the section with a handle by its image. -/
def modifySection (m : Monitor) (i : Index) (f : Section → Section) : Monitor :=
  match i with
  | ⟨0⟩ => { m with rootSection := f m.rootSection }
  | ⟨i + 1⟩ => { m with sections := m.sections.modify i f }

/-- Adds an entry to the timeline, if one is recorded. -/
def record (m : Monitor) (event : TraceEvent) : Monitor :=
  { m with trace := m.trace.map fun t ↦ t.push event }

/-! ## Registration -/

/-- The handle that a label has, or gets when it is registered. -/
def indexOf (m : Monitor) (label : String) : Index := m.registry.indexOf label

/-- Where the volumes of a new section come from. -/
def newSource (m : Monitor) : VolumeSource :=
  .resolve m.settings.volumeMode m.countersActive

/-- Registers a label, with an idle section of default properties, unless it is known. -/
def register (m : Monitor) (label : String) : Monitor :=
  match m.lookup label with
  | some _ => m
  | none =>
    record
      { m with
        registry := m.registry.add label
        sections := m.sections ++ [{ label := label, source := m.newSource }] }
      (.defineLabel (m.indexOf label) label)

/-- What registering a label writes to the log. -/
def registration (m : Monitor) (label : String) : List Notice :=
  match m.lookup label with
  | some _ => []
  | none => [.registered label (m.indexOf label) m.newSource]

/-- The handle of a label, which is registered if it is new. -/
def resolve (m : Monitor) (label : String) : Outcome Index :=
  .success (m.indexOf label) (m.register label) (m.registration label)

/-! ## Building -/

/-- A monitor without sections. -/
def blank (settings : Settings) (events : List String) (scope : Scope) (root : Phase) :
    Monitor where
  settings := settings
  events := events
  scope := scope
  rootSection := .root root

/-- A new monitor whose root section runs since `now`. The adapter, if there is one, lists the
events that it can count; an adapter without events is not used. -/
def build (settings : Settings) (adapterEvents : Option (List String)) (traced : Bool)
    (now : Duration) : Monitor :=
  let m := blank settings (adapterEvents.getD []) .process (.running now [])
  if traced then { m with trace := some #[.defineLabel .root "Root"] } else m

/-- What building a monitor writes to the log. -/
def buildLog (settings : Settings) (adapterEvents : Option (List String)) : List LogEntry :=
  (match adapterEvents with
    | none => []
    | some [] => [.adapter .events, .notice .countersDisabled]
    | some events => [.adapter .events, .notice (.countersActive events)]) ++
    [.notice (.created settings)]

end Monitor

end SectionMonitor
