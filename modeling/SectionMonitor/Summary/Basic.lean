import SectionMonitor.Settings
import SectionMonitor.Summary.SectionSummary

/-!
# Summaries of jobs

Everything that is known of a job after its statistics have been gathered. The exclusive sections
are ranked: the slowest first, and those without statistics last.
-/

namespace SectionMonitor

/-- What all processes of a job measured. -/
structure Summary where
  /-- How long each process was monitored, in seconds, by rank. -/
  rootTimes : List Float
  settings : Settings
  events : List String
  sections : List SectionSummary
  deriving DecidableEq, Repr

/-! ## Ranking -/

namespace Ranking

/-- Whether a section takes part in the ranking. -/
def admits (s : SectionSummary) : Bool := s.exclusive && !s.label.isEmpty

/-- The mean time of a section, if it has statistics. -/
def meanTime? (s : SectionSummary) : Option Float := s.statistics?.map Statistics.meanTime

/-- Whether a mean time may stand before another one: the longer before the shorter, and any time
before none. -/
def precedes : Option Float → Option Float → Bool
  | some a, some b => orderKey b ≤ orderKey a
  | some _, none => true
  | none, some _ => false
  | none, none => true

end Ranking

namespace Summary

/-- How many processes took part. -/
def processCount (s : Summary) : Nat := s.rootTimes.length

/-- The mean time that a process was monitored, in seconds. -/
def totalTime (s : Summary) : Float := mean s.rootTimes

/-- The sections that take part in the ranking, with their positions, the slowest first. Sections
of equal rank stay in order. -/
def rankedSections (s : Summary) : List (SectionSummary × Nat) :=
  ((s.sections.zipIdx).filter fun p ↦ Ranking.admits p.1).mergeSort fun p q ↦
    Ranking.precedes (Ranking.meanTime? p.1) (Ranking.meanTime? q.1)

/-- The positions of the ranked sections, the slowest first. -/
def ranking (s : Summary) : List Nat := s.rankedSections.map Prod.snd

/-- The ranked sections, the slowest first. -/
def ranked (s : Summary) : List SectionSummary := s.rankedSections.map Prod.fst

/-- The position of the section with a label. -/
def position? (s : Summary) (label : String) : Option Nat :=
  s.sections.findIdx? fun t ↦ t.label = label

/-- Whether any process finished any section. -/
def hasCalls (s : Summary) : Bool := s.sections.any SectionSummary.hasCalls

end Summary

end SectionMonitor
