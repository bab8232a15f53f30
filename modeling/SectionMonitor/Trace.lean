import SectionMonitor.Section

/-!
# Traces

A trace is the timeline of a monitor's sections: when each one was started and stopped, under
which handle, and which label a handle stands for. It only ever grows.
-/

namespace SectionMonitor

/-- One entry of a timeline. Times are in seconds since the monitor was built. -/
inductive TraceEvent where
  /-- From here on the handle stands for the label. -/
  | defineLabel (index : Index) (label : String)
  | start (index : Index) (time : Float)
  | stop (index : Index) (time volume : Float)
  /-- The timeline is complete. -/
  | finalize
  deriving DecidableEq, Repr

/-- A timeline, the oldest entry first. -/
abbrev Trace := Array TraceEvent

end SectionMonitor
