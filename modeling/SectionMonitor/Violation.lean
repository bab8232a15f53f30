import SectionMonitor.Section

/-!
# Violations

Everything that a measured program can do wrong with its sections. A violation names its cause;
the wording is in one place.
-/

namespace SectionMonitor

/-- A misuse of sections. What is measured after one is not meaningful. -/
inductive Violation where
  /-- A section was started while it was running. -/
  | alreadyRunning (label : String)
  /-- A section was stopped while it was not running. -/
  | notRunning (label : String)
  /-- An exclusive section was started while another one was running. -/
  | exclusiveOverlap (label active : String)
  /-- A section was given other properties than it has. -/
  | conflictingProperties (label : String) (existing requested : Properties)
  /-- Statistics were gathered a second time. -/
  | alreadyGathered
  /-- A section was to be emptied while it was running. -/
  | runningDuringReset (label : String)
  /-- A replica was to be folded back while one of its sections was running. -/
  | runningDuringMerge (label : String)
  /-- Statistics were to be gathered while a section was running. -/
  | runningDuringGather (label : String)
  deriving DecidableEq, Repr

namespace Violation

/-- What the user is told. -/
def message : Violation → String
  | .alreadyRunning label => "section '" ++ label ++ "' was started while already running"
  | .notRunning label => "section '" ++ label ++ "' was stopped but it is not running"
  | .exclusiveOverlap label active =>
    "exclusive section '" ++ label ++ "' was started while exclusive section '" ++ active ++
      "' is still running"
  | .conflictingProperties label existing requested =>
    "section '" ++ label ++ "' is already defined as " ++ existing.render ++
      ", cannot redefine it as " ++ requested.render
  | .alreadyGathered =>
    "statistics have already been gathered, a second gather would double-reduce them"
  | .runningDuringReset label =>
    "section '" ++ label ++ "' cannot be reset while it is running"
  | .runningDuringMerge label =>
    "thread-private section '" ++ label ++ "' is still running and cannot be merged"
  | .runningDuringGather label =>
    "section '" ++ label ++ "' is still running, stop it before gathering statistics"

/-- The line on standard error with which a program that misused its sections ends. -/
def lastWords (v : Violation) : String := "perf_sections: " ++ v.message ++ "\n"

end Violation

end SectionMonitor
