import SectionMonitor.Monitor.Basic

/-!
# Starting over

The totals of one section can be forgotten, or all sections with their labels. Neither is possible
while an interval is open.
-/

namespace SectionMonitor

namespace Monitor

/-- Forgets what was measured of the section with a label. An unknown label is no mistake. -/
def reset (m : Monitor) (label : String) : Outcome Unit :=
  match m.lookup label with
  | none => .success () m []
  | some i =>
    if (m.sectionAt i).isRunning then .refusal (.runningDuringReset label) m []
    else .success () (m.modifySection i Section.clear) [.cleared label]

/-- The root section, emptied; if it runs, it runs since now. -/
def restartRoot (root : Section) (now : Duration) : Section :=
  { root.clear with phase := if root.isRunning then .running now [] else root.phase }

/-- Forgets all sections and labels, and lets the root section begin again. -/
def resetAll (m : Monitor) (now : Duration) : Outcome Unit :=
  match m.running? with
  | some s => .refusal (.runningDuringReset s.label) m []
  | none =>
    .success ()
      { m with
        -- Handles start at one again, so earlier ones come to name other sections.
        registry := {}
        sections := []
        token := none
        rootSection := restartRoot m.rootSection now }
      [.allCleared]

end Monitor

end SectionMonitor
