import SectionMonitor.Gather
import SectionMonitor.Monitor.Interval
import SectionMonitor.Monitor.Region
import SectionMonitor.Monitor.Reset
import SectionMonitor.Proofs.Exchange

/-!
# Runs of a monitor

The operations of a monitor as data, so that one can speak of every sequence of them. A `Call` is
what a thread asks of the monitor that it measures with; an `Operation` is a call or one of the
larger operations that bring several monitors together.

What an operation learns from outside is part of it and chosen anew each time: the clock may run
in any direction, the team and the counters may answer as they like, the replicas of a merge and
the body of a parallel region may be any monitors, and a gather may be answered anything.
-/

namespace SectionMonitor

/-- The outcome with another result. -/
def Outcome.map {α β : Type} (f : α → β) (o : Outcome α) : Outcome β :=
  ⟨o.result.map f, o.monitor, o.log⟩

@[simp] theorem Outcome.monitor_map {α β : Type} (f : α → β) (o : Outcome α) :
    (o.map f).monitor = o.monitor := rfl

@[simp] theorem Outcome.result_map {α β : Type} (f : α → β) (o : Outcome α) :
    (o.map f).result = o.result.map f := rfl

/-- A process without threads and counters, at some time. -/
def Surroundings.plain (now : Duration) : Surroundings where
  now := now
  team := .serial
  read _ := []
  advance _ _ := []
  derive _ _ := 0

namespace Monitor

/-! ## Calls -/

/-- What a thread asks of the monitor that it measures with. -/
inductive Call where
  | resolve (label : String)
  | setProperties (label : String) (requested : Properties)
  | start (here : Surroundings) (label : String)
  | stop (here : Surroundings) (label : String) (work : Work)
  | reset (label : String)
  | resetAll (now : Duration)

/-- What a call leads to. Some calls answer with the handle of the section. -/
def perform (m : Monitor) : Call → Outcome (Option Index)
  | .resolve label => (m.resolve label).map some
  | .setProperties label requested => (m.setProperties label requested).map some
  | .start here label => (m.start here label).map some
  | .stop here label work => (m.stop here label work).map fun _ ↦ none
  | .reset label => (m.reset label).map fun _ ↦ none
  | .resetAll now => (m.resetAll now).map fun _ ↦ none

/-! ## Operations -/

/-- Everything that can be asked of a monitor. -/
inductive Operation where
  | call (c : Call)
  | replica (thread : ℕ)
  | merge (replicas : List Monitor)
  | parallel (here : Surroundings) (body : ℕ → Monitor → Monitor × Ending)
  | gather (now : Duration) (t : Transport)

/-- The monitor after an operation, whether it succeeds or not. -/
def after (m : Monitor) : Operation → Monitor
  | .call c => (m.perform c).monitor
  | .replica _ => m
  | .merge replicas => (m.merge replicas).monitor
  | .parallel here body => (m.parallel here body).monitor
  | .gather now t => ((m.gather now t.rank t.size).answeredBy t 0).monitor

/-- What an operation tells the program that asked for it: its result, and what it wrote to the
log. -/
inductive Answer where
  | call (result : Except Violation (Option Index)) (log : List LogEntry)
  | replica (r : Monitor) (notices : List Notice)
  | merge (result : Except Violation Unit) (log : List LogEntry)
  | parallel (ending : Ending) (log : List LogEntry)
  | gather (result : Except Violation (Option Summary)) (log : List LogEntry)

/-- The answer to an operation. -/
def answer (m : Monitor) : Operation → Answer
  | .call c => .call (m.perform c).result (m.perform c).log
  | .replica thread => .replica (m.replicate thread).1 (m.replicate thread).2
  | .merge replicas => .merge (m.merge replicas).result (m.merge replicas).log
  | .parallel here body => .parallel (m.parallel here body).ending (m.parallel here body).log
  | .gather now t =>
    let gathered := (m.gather now t.rank t.size).answeredBy t 0
    .gather gathered.result gathered.log

/-- The monitor after several operations, failed ones included. -/
def run (m : Monitor) (ops : List Operation) : Monitor := ops.foldl after m

@[simp] theorem run_nil (m : Monitor) : m.run [] = m := rfl

@[simp] theorem run_append (m : Monitor) (ops : List Operation) (op : Operation) :
    m.run (ops ++ [op]) = (m.run ops).after op := by
  rw [run, run, List.foldl_append, List.foldl_cons, List.foldl_nil]

/-- The monitor after operations of which one is singled out. -/
theorem run_append_cons (m : Monitor) (before between : List Operation) (op : Operation) :
    m.run (before ++ op :: between) = ((m.run before).after op).run between := by
  rw [run, run, run, List.foldl_append, List.foldl_cons]

/-- The monitors that a program can get hold of: those that it builds, their replicas, and what
becomes of either by operations. -/
inductive Reachable : Monitor → Prop
  | build (settings : Settings) (adapterEvents : Option (List String)) (traced : Bool)
      (now : Duration) : Reachable (build settings adapterEvents traced now)
  | replica {m : Monitor} (thread : ℕ) : Reachable m → Reachable (m.replica thread)
  | after {m : Monitor} (op : Operation) : Reachable m → Reachable (m.after op)

end Monitor

end SectionMonitor
