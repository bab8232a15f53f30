import SectionMonitor.Summary.Basic

/-!
# Rows of a report

A report selects the sections that were called and lists the exclusive ones before the others. A
row holds what a line of the report shows, before it is written out.
-/

namespace SectionMonitor

/-- A summary together with what is to be shown of it. -/
structure Report where
  summary : Summary
  order : ReportOrder
  level : ReportLevel
  deriving DecidableEq, Repr

/-- The report that the settings of a summary ask for. -/
def Summary.report (s : Summary) : Report := ⟨s, s.settings.reportOrder, s.settings.reportLevel⟩

/-! ## Rows -/

/-- A section over all processes. -/
structure SectionRow where
  label : String
  calls : Count
  meanTime : Option Float
  deviationTime : Option Float
  percent : Option Float
  timePerCall : Option Float
  speed : Option Speed
  communicationTime : Option Float
  consistent : Bool
  deriving DecidableEq, Repr

/-- The row of a section. Percentages refer to the total time. -/
def SectionRow.ofSection (totalTime : Float) (s : SectionSummary) : SectionRow where
  label := s.label
  calls := s.calls
  meanTime := s.statistics?.map Statistics.meanTime
  deviationTime := s.statistics?.map Statistics.deviationTime
  percent := s.percentOf? totalTime
  timePerCall := s.timePerCall?
  speed := s.normalizedSpeed?
  communicationTime := s.communicationTime?
  consistent := s.isConsistent

/-- The share of one process in a section. -/
structure RankRow where
  rank : Nat
  sample : Sample
  speed : Option Speed
  deriving DecidableEq, Repr

/-- The speed of one process, if there was work and it took time. -/
def Sample.speed? (kind : Kind) (s : Sample) : Option Speed :=
  if s.elapsed > 0 ∧ s.volume > 0 then some (.normalize (s.volume / s.elapsed) kind) else none

/-- A hardware event of a section. -/
structure CounterRow where
  event : String
  total : Count
  /-- The counts of all processes, by rank. -/
  perRank : List Count
  deriving DecidableEq, Repr

namespace SectionSummary

/-- The shares of all processes, by rank. -/
def rankRows (s : SectionSummary) : List RankRow :=
  s.samples.mapIdx fun rank sample ↦ ⟨rank, sample, sample.speed? s.unitKind⟩

/-- The hardware events with the given names, in order. -/
def counterRows (s : SectionSummary) (events : List String) : List CounterRow :=
  events.mapIdx fun i event ↦
    ⟨event, s.counterTotals.count i, s.counters.map fun reading ↦ reading.count i⟩

end SectionSummary

namespace Report

/-! ## Selection -/

/-- The exclusive sections that have a label, in the order of the report. -/
def exclusiveSections (r : Report) : List SectionSummary :=
  match r.order with
  | .byTime => r.summary.ranked
  | .byRegistration => r.summary.sections.filter Ranking.admits

/-- The exclusive sections that were called. -/
def calledExclusive (r : Report) : List SectionSummary :=
  r.exclusiveSections.filter SectionSummary.hasCalls

/-- The other sections that were called, in the order of registration. -/
def calledOthers (r : Report) : List SectionSummary :=
  r.summary.sections.filter fun s ↦ !s.exclusive && s.hasCalls

/-- All sections that the report lists. -/
def listed (r : Report) : List SectionSummary := r.calledExclusive ++ r.calledOthers

/-- The rows of the exclusive sections. -/
def exclusiveRows (r : Report) : List SectionRow :=
  r.calledExclusive.map (.ofSection r.summary.totalTime)

/-- The rows of the other sections. -/
def otherRows (r : Report) : List SectionRow :=
  r.calledOthers.map (.ofSection r.summary.totalTime)

end Report

end SectionMonitor
