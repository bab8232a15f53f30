import SectionMonitor.Decimal.Fixed
import SectionMonitor.Report.Rows
import SectionMonitor.Text.Padding

/-!
# The text of a report

A report is a list of lines. Its parts stand one after the other: the sections, then the share of
every process, then the hardware counters. A level only decides how many of these parts follow.
-/

namespace SectionMonitor

open Text (alignLeft alignRight)
open Decimal (fixed scientific)

/-- The least width of the column of labels. -/
def Report.minLabelWidth : Nat := 12

/-! ## Lines -/

namespace SectionRow

/-- The names of the columns. -/
def header (width : Nat) : String :=
  "  " ++ alignLeft width "Label" ++ " " ++ alignRight 10 "Calls" ++ " " ++
    alignRight 12 "Time [s]" ++ " " ++ alignRight 12 "StdDev [s]" ++ " " ++
    alignRight 8 "[%]" ++ " " ++ alignRight 12 "s/call" ++ " " ++ alignRight 16 "Speed"

/-- The columns of label and calls. -/
def lead (width : Nat) (r : SectionRow) : String :=
  "  " ++ alignLeft width r.label ++ " " ++ alignRight 10 (Nat.repr r.calls.toNat)

/-- The column of the speed. -/
def speedColumn (r : SectionRow) : String :=
  match r.speed with
  | some speed => " " ++ alignRight 9 (fixed 3 speed.amount) ++ " " ++ speed.unit.label
  | none => " " ++ alignRight 16 "-"

/-- What follows the columns. -/
def remark (r : SectionRow) : String :=
  match r.communicationTime with
  | some longest => "  (max " ++ fixed 6 longest ++ " s)"
  | none => ""

/-- The line of a section. A number that is not known is shown as zero. -/
def line (width : Nat) (r : SectionRow) : String :=
  if r.consistent then
    r.lead width ++ " " ++ alignRight 12 (fixed 6 (r.meanTime.getD 0)) ++ " " ++
      alignRight 12 (fixed 6 (r.deviationTime.getD 0)) ++ " " ++
      alignRight 8 (fixed 2 (r.percent.getD 0)) ++ " " ++
      alignRight 12 (fixed 6 (r.timePerCall.getD 0)) ++ r.speedColumn ++ r.remark
  else r.lead width ++ " (call counts differ between processes)"

end SectionRow

/-- The line of a process. -/
def RankRow.line (r : RankRow) : String :=
  "    rank " ++ alignLeft 4 (Nat.repr r.rank) ++ " " ++
    alignRight 12 (fixed 6 r.sample.elapsed) ++ " s " ++
    alignRight 10 (Nat.repr r.sample.calls.toNat) ++ " calls " ++
    alignRight 14 (scientific 4 r.sample.volume) ++
    match r.speed with
    | some speed => " " ++ alignRight 10 (fixed 3 speed.amount) ++ " " ++ speed.unit.label
    | none => ""

/-- The line of a hardware event. -/
def CounterRow.line (r : CounterRow) : String :=
  "    " ++ alignLeft 24 r.event ++ " " ++ alignRight 20 (Nat.repr r.total.toNat)

/-! ## Parts -/

namespace Report

/-- The width of the column of labels: that of the longest label of any section. -/
def labelWidth (r : Report) : Nat :=
  (r.summary.sections.map fun s ↦ s.label.length).foldl max minLabelWidth

/-- What the report is about. -/
def titleLines (r : Report) : List String :=
  ["Section statistics over " ++ Nat.repr r.summary.processCount ++ " process(es), total time " ++
    fixed 6 r.summary.totalTime ++ " s", ""]

/-- How the order of the exclusive sections is announced. -/
def orderName : ReportOrder → String
  | .byTime => "slowest first"
  | .byRegistration => "in registration order"

/-- The share of the total time that the exclusive sections cover, in percent. -/
def covered (r : Report) : Float := sum (r.exclusiveRows.filterMap SectionRow.percent)

/-- The exclusive sections and how much of the total time they cover. -/
def exclusiveLines (r : Report) : List String :=
  ["Exclusive sections (" ++ orderName r.order ++ "):", SectionRow.header r.labelWidth] ++
    r.exclusiveRows.map (SectionRow.line r.labelWidth) ++
    ["  " ++ alignLeft r.labelWidth "(sum of exclusive sections)" ++ " " ++
      alignRight 48 (fixed 2 r.covered) ++ "% of total"]

/-- The other sections, if there are any. -/
def otherLines (r : Report) : List String :=
  if r.otherRows.isEmpty then []
  else
    ["", "Non-exclusive sections:", SectionRow.header r.labelWidth] ++
      r.otherRows.map (SectionRow.line r.labelWidth)

/-- A section with one line per process. -/
def rankPart (s : SectionSummary) : List String :=
  ("  " ++ s.label) :: s.rankRows.map RankRow.line

/-- The share of every process in every section. -/
def rankLines (r : Report) : List String :=
  ["", "Per-process detail:"] ++ r.listed.flatMap rankPart

/-- A section with one line per hardware event. -/
def counterPart (events : List String) (s : SectionSummary) : List String :=
  ("  " ++ s.label) :: (s.counterRows events).map CounterRow.line

/-- The hardware events of every section. -/
def counterLines (r : Report) : List String :=
  ["", "Hardware counters (" ++ r.summary.settings.volumeMode.name ++ "):"] ++
    r.listed.flatMap (counterPart r.summary.events)

/-! ## The whole -/

/-- The lines of the report. Where no section was called there is nothing to list. -/
def lines (r : Report) : List String :=
  if r.summary.hasCalls then
    r.titleLines ++ r.exclusiveLines ++ r.otherLines ++
      (if r.level.includes .detail then r.rankLines else []) ++
      (if r.level.includes .full && !r.summary.events.isEmpty then r.counterLines else [])
  else ["No section statistics captured."]

/-- The text of the report; every line ends with a line feed. -/
def text (r : Report) : String := String.join (r.lines.map fun line ↦ line ++ "\n")

/-- What a program prints of the report: nothing at all if no section was called, so that a job
that measured nothing keeps its output clean. -/
def printed (r : Report) : String := if r.summary.hasCalls then r.text ++ "\n" else ""

end Report

end SectionMonitor
