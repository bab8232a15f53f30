import SectionMonitor.Section
import SectionMonitor.Summary.Statistics

/-!
# Summaries of sections

What all processes measured of one section. Every process should enter an exclusive section
equally often; if they did not, means over the processes would compare unlike things and are left
out.
-/

namespace SectionMonitor

/-- What all processes measured of one section. -/
structure SectionSummary where
  label : String
  properties : Properties
  source : VolumeSource
  /-- One sample per process, by rank. -/
  samples : List Sample
  /-- The counters of each process, by rank. -/
  counters : List Reading
  deriving DecidableEq, Repr

namespace SectionSummary

/-- What the section measures. -/
def kind (s : SectionSummary) : Kind := s.properties.kind

/-- Whether the section excludes other exclusive sections. -/
def exclusive (s : SectionSummary) : Bool := s.properties.exclusive

/-- How often each process finished the section, by rank. -/
def callCounts (s : SectionSummary) : List Count := s.samples.map Sample.calls

/-- Whether each member of a list equals the next one. -/
def allSame : List Count → Bool
  | a :: b :: rest => a == b && allSame (b :: rest)
  | _ => true

/-- Whether the processes agree on the number of calls. Sections that overlap others may be
entered as often as each process likes. -/
def isConsistent (s : SectionSummary) : Bool := !s.exclusive || allSame s.callCounts

/-- Means and deviations, unless the processes disagree or there is none. -/
def statistics? (s : SectionSummary) : Option Statistics :=
  if s.isConsistent && !s.samples.isEmpty then some (.ofSamples s.samples) else none

/-- The longest time that a process spent on communication. -/
def communicationTime? (s : SectionSummary) : Option Float :=
  if s.kind = .communication then some (largest (s.samples.map Sample.elapsed)) else none

/-- The number of calls on rank zero. -/
def calls (s : SectionSummary) : Count := s.callCounts.headD 0

/-- Whether any process finished the section. -/
def hasCalls (s : SectionSummary) : Bool := s.callCounts.any (0 < ·)

/-- The counters of all processes together. -/
def counterTotals (s : SectionSummary) : Reading := Reading.total s.counters

/-- The kind of work that decides the unit of a speed. -/
def unitKind (s : SectionSummary) : Kind :=
  match s.source with
  | .adapterDerived mode => mode.unitKind
  | .userSupplied | .timeOnly => s.kind

/-- Mean work per second, if there was work and it took time. -/
def speed? (s : SectionSummary) : Option Float :=
  s.statistics?.bind fun t ↦
    if t.meanTime > 0 ∧ t.meanVolume > 0 then some (t.meanVolume / t.meanTime) else none

/-- The mean speed in a unit for reading. -/
def normalizedSpeed? (s : SectionSummary) : Option Speed :=
  s.speed?.map fun v ↦ .normalize v s.unitKind

/-- Mean time divided by the calls on rank zero, if rank zero has any. -/
def timePerCall? (s : SectionSummary) : Option Float :=
  s.statistics?.bind fun t ↦ if 0 < s.calls then some (t.meanTime / s.calls.toFloat) else none

/-- Mean time in percent of a positive total. -/
def percentOf? (s : SectionSummary) (total : Float) : Option Float :=
  s.statistics?.bind fun t ↦ if total > 0 then some (t.meanTime / total * 100) else none

end SectionSummary

end SectionMonitor
