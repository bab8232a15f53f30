import SectionMonitor.Monitor.Replica

/-!
# Parallel regions

In a parallel region every thread of the team works with a replica of its own. When all threads
are done the replicas are folded back. A thread that panics or violates the rules spoils the
region: nothing is folded back, and the thread with the lowest number decides what is told.
-/

namespace SectionMonitor

/-- How the work of a thread, or a whole region, ends. -/
inductive Ending where
  /-- Everything was done. -/
  | finished
  /-- A violation ended the work. -/
  | refused (v : Violation)
  /-- The measured program itself broke down. -/
  | panicked (message : String)
  deriving DecidableEq, Repr

namespace Ending

/-- The message of a panic. -/
def panic? : Ending → Option String
  | .panicked message => some message
  | _ => none

/-- The violation that ended the work. -/
def violation? : Ending → Option Violation
  | .refused v => some v
  | _ => none

/-- The ending that a result amounts to. -/
def ofResult : Except Violation Unit → Ending
  | .ok () => .finished
  | .error v => .refused v

end Ending

/-- What a parallel region leads to. -/
structure Region where
  ending : Ending
  monitor : Monitor
  log : List LogEntry

namespace Monitor

/-- The replicas of a region, by thread, and what making them writes to the log. -/
def crew (m : Monitor) (here : Surroundings) : List (Monitor × List Notice) :=
  (List.range here.team.threads).map m.replicate

/-- Ends a region: a panic comes first, then a violation, and only work that all threads finished
is folded back. -/
def join (m : Monitor) (done : List (Monitor × Ending)) : Region :=
  match done.findSome? fun d ↦ d.2.panic? with
  | some message => ⟨.panicked message, m, []⟩
  | none =>
    match done.findSome? fun d ↦ d.2.violation? with
    | some v => ⟨.refused v, m, []⟩
    | none =>
      let merged := m.merge (done.map Prod.fst)
      ⟨.ofResult merged.result, merged.monitor, merged.log⟩

/-- Runs a body on every thread of the team. -/
def parallel (m : Monitor) (here : Surroundings) (body : Nat → Monitor → Monitor × Ending) :
    Region :=
  let crew := m.crew here
  let joined := m.join (crew.mapIdx fun thread r ↦ body thread r.1)
  { joined with log := (crew.flatMap Prod.snd).map .notice ++ joined.log }

end Monitor

end SectionMonitor
