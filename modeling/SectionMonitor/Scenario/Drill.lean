import SectionMonitor.Exchange.Lockstep
import SectionMonitor.Registry
import SectionMonitor.Trace

/-!
# Drills

Exercises for single parts: the ranks of a job take a list of collective steps together, and a
timeline is recorded event by event.
-/

namespace SectionMonitor

/-! ## Collective steps -/

/-- What a rank is told to do. -/
inductive DrillCall where
  /-- Tell your rank and the number of ranks. -/
  | rank
  | request (r : Exchange.Request)
  deriving DecidableEq, Repr

/-- What a rank reports. -/
inductive DrillReport where
  | rank (rank size : Nat)
  | response (r : Exchange.Response)
  deriving DecidableEq, Repr

namespace Drill

/-- The exchange of one rank. -/
def exchange (rank size : Nat) : List DrillCall → Exchange (List DrillReport)
  | [] => .done []
  | .rank :: rest =>
    (exchange rank size rest).bind fun reports ↦ .done (.rank rank size :: reports)
  | .request r :: rest =>
    (Exchange.ask r).bind fun response ↦
      (exchange rank size rest).bind fun reports ↦ .done (.response response :: reports)

/-- A process that is alone. -/
def alone (calls : List DrillCall) : List DrillReport := (exchange 0 1 calls).alone

/-- The reports of all ranks, given the calls of each. -/
def together (calls : List (List DrillCall)) : Option (List (List DrillReport)) :=
  Exchange.together (calls.mapIdx fun rank cs ↦ exchange rank calls.length cs)

end Drill

/-! ## Recording -/

/-- An event that names its section by label. -/
inductive LabelledEvent where
  | define (label : String)
  | start (label : String) (time : Float)
  | stop (label : String) (time volume : Float)
  | finalize (label : String)
  deriving DecidableEq, Repr

namespace LabelledEvent

/-- The label that an event names. -/
def label : LabelledEvent → String
  | .define label => label
  | .start label _ => label
  | .stop label _ _ => label
  | .finalize label => label

/-- The entry of a timeline, under the handle that the label has. -/
def entry (index : Index) : LabelledEvent → TraceEvent
  | .define label => .defineLabel index label
  | .start _ time => .start index time
  | .stop _ time volume => .stop index time volume
  | .finalize _ => .finalize

/-- The timeline of labelled events. A label gets its handle when it first appears. -/
def record : Registry → List LabelledEvent → List TraceEvent
  | _, [] => []
  | r, e :: rest => e.entry (r.indexOf e.label) :: record (r.add e.label) rest

end LabelledEvent

end SectionMonitor
