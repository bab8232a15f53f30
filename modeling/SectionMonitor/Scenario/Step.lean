import SectionMonitor.Exchange.Replay
import SectionMonitor.Gather
import SectionMonitor.Monitor.Interval
import SectionMonitor.Monitor.Region
import SectionMonitor.Monitor.Reset
import SectionMonitor.Report.Rows
import SectionMonitor.Scenario.Bench

/-!
# Steps of a measured program

A measured program is a list of steps: it starts and stops sections, lets time pass, and runs
parts of itself in parallel. Each step is answered. The threads of a parallel region are run one
after the other, each on a clock of its own that begins with the caller's; the region ends when
the last of them ends.
-/

namespace SectionMonitor

/-! ## Questions and answers -/

/-- A report with another level or order than the settings ask for. -/
structure View where
  level : Option ReportLevel := none
  order : Option ReportOrder := none
  deriving DecidableEq, Repr

/-- The report of a summary that a view asks for. -/
def View.report (v : View) (s : Summary) : Report :=
  { s.report with
    level := v.level.getD s.report.level
    order := v.order.getD s.report.order }

/-- What is asked of a summary beyond what it always shows. -/
structure Inquiry where
  views : Option (List View) := none
  labels : Option (List String) := none
  totals : Option (List Float) := none
  deriving DecidableEq, Repr

/-- One step of a measured program. -/
inductive Step where
  | resolve (label : String)
  | lookup (label : String)
  | setProperties (label : String) (properties : Properties)
  | start (label : String)
  | stop (label : String) (work : Monitor.Work)
  | reset (label : String)
  | resetAll
  | inspect (label : String)
  | overview
  | settings
  | events
  | clock (move : ClockMove)
  | counters (thread : Nat) (reading : Reading)
  /-- Runs steps several times, up to the first violation. -/
  | repeated (times : Nat) (steps : List Step)
  | panic (message : String)
  /-- Runs a body on every thread; when there are fewer bodies than threads, the last one is used
  for the rest. -/
  | parallel (bodies : List (List Step))
  /-- Gathers statistics, alone or with scripted answers. -/
  | gather (script : Option Script) (inquiry : Inquiry)
  /-- A step whose violation does not end the body of its thread. -/
  | tolerated (step : Step)

/-- What a step finds out. -/
inductive Finding where
  | nothing
  | index (i : Index)
  | maybeIndex (i : Option Index)
  | snapshot (found : Option (Index × Section))
  | overview (m : Monitor)
  | settings (s : Settings)
  | names (names : List String)
  | summary (s : Option Summary) (inquiry : Inquiry)
  /-- A parallel region that ended in a panic. -/
  | panicked (message : String)
  deriving DecidableEq, Repr

/-- The answer to a step. -/
abbrev Answer := Except Violation Finding

/-- The answer to a step with all that it brought about. -/
structure Reply where
  answer : Answer
  log : List LogEntry
  /-- The collective steps of a gather with scripted answers. -/
  requests : Option (List Exchange.Request) := none
  /-- The answers of every thread of a parallel region. -/
  threads : Option (List (List Reply)) := none

/-! ## Taking a step -/

/-- What a step leads to: an answer or a panic, and the station and the bench afterwards. -/
structure Turn where
  answer : Except String Answer
  station : Station
  bench : Bench
  log : List LogEntry := []
  requests : Option (List Exchange.Request) := none
  threads : Option (List (List Reply)) := none
  /-- Whether a violation lets the body go on. -/
  tolerated : Bool := false

/-- What a step does at a station. -/
abbrev Action := Station → Bench → Turn

namespace Turn

/-- A step that changes nothing at its station. -/
def found (finding : Finding) (st : Station) (bench : Bench) : Turn :=
  { answer := .ok (.ok finding), station := st, bench := bench }

/-- A step that is an operation of the monitor. -/
def ofOutcome {α : Type} (st : Station) (bench : Bench) (o : Outcome α) (finding : α → Finding) :
    Turn :=
  { answer := .ok (o.result.map finding)
    station := { st with monitor := o.monitor }
    bench := bench
    log := o.log }

end Turn

/-- What several steps brought about together: everything that they logged, but only the latest of
the exchanges and of the parallel regions. -/
structure Trail where
  /-- The log, the latest entry first. -/
  logged : List LogEntry := []
  requests : Option (List Exchange.Request) := none
  threads : Option (List (List Reply)) := none

namespace Trail

/-- The trail after one more step. A step without an exchange or a region hides no earlier one. -/
def add (trail : Trail) (t : Turn) : Trail where
  logged := t.log.reverse ++ trail.logged
  requests := t.requests.or trail.requests
  threads := t.threads.or trail.threads

/-- The steps of a trail as one step. -/
def turn (trail : Trail) (answer : Except String Answer) (st : Station) (bench : Bench) : Turn where
  answer := answer
  station := st
  bench := bench
  log := trail.logged.reverse
  requests := trail.requests
  threads := trail.threads

end Trail

namespace Action

/-- Takes steps up to the first violation or panic, after other ones that left a trail. -/
def inOrderAfter : Trail → List Action → Action
  | trail, [], st, bench => trail.turn (.ok (.ok .nothing)) st bench
  | trail, action :: rest, st, bench =>
    let t := action st bench
    let trail' := trail.add t
    match t.answer with
    | .ok (.ok _) => inOrderAfter trail' rest t.station t.bench
    | answer => trail'.turn answer t.station t.bench

/-- Takes steps up to the first violation or panic. The answers of the single steps are lost. -/
def inOrder : List Action → Action := inOrderAfter {}

/-- What a thread's body leads to. -/
structure ThreadRun where
  replies : List Reply
  ending : Ending
  station : Station
  bench : Bench

/-- Takes the steps of a thread's body. A violation ends the body unless it is tolerated; a panic
always does, and leaves no answer. -/
def body : List Action → Station → Bench → ThreadRun
  | [], st, bench => ⟨[], .finished, st, bench⟩
  | action :: rest, st, bench =>
    let t := action st bench
    match t.answer with
    -- A tolerated step can panic too, and then it is no more tolerated than others.
    | .error message => ⟨[], .panicked message, t.station, t.bench⟩
    | .ok answer =>
      let reply : Reply := ⟨answer, t.log, t.requests, t.threads⟩
      match answer, t.tolerated with
      | .error v, false => ⟨[reply], .refused v, t.station, t.bench⟩
      | _, _ =>
        let later := body rest t.station t.bench
        { later with replies := reply :: later.replies }

/-- The body that a thread runs. -/
def bodyOf (bodies : List (List Action)) (thread : Nat) : List Action :=
  bodies.getD (min thread (bodies.length - 1)) []

/-- Runs the bodies of a crew one after the other. They share the adapters, but each has the clock
that the caller had. -/
def crew (st : Station) (clock : Instant) :
    List (Monitor × List Action) → List Adapter → List ThreadRun × List Adapter
  | [], adapters => ([], adapters)
  | (replica, actions) :: rest, adapters =>
    let run := body actions { st with monitor := replica } ⟨clock, adapters⟩
    let (runs, adapters') := crew st clock rest run.bench.adapters
    (run :: runs, adapters')

/-- Runs a parallel region. -/
def parallel (bodies : List (List Action)) : Action := fun st bench ↦
  let replicas := st.monitor.crew (st.surroundings bench)
  let jobs := replicas.mapIdx fun thread r ↦ (r.1, bodyOf bodies thread)
  let (runs, adapters) := crew st bench.clock jobs bench.adapters
  let region := st.monitor.join (runs.map fun r ↦ (r.station.monitor, r.ending))
  { answer :=
      match region.ending with
      | .finished => .ok (.ok .nothing)
      | .refused v => .ok (.error v)
      | .panicked message => .ok (.ok (.panicked message))
    station := { st with monitor := region.monitor }
    bench := ⟨(runs.map fun r ↦ r.bench.clock).foldl max bench.clock, adapters⟩
    log := (replicas.flatMap Prod.snd).map .notice ++ region.log
    threads := some (runs.map ThreadRun.replies) }

/-- Gathers statistics alone. -/
def gatherAlone (inquiry : Inquiry) : Action := fun st bench ↦
  .ofOutcome st bench (st.monitor.gather (st.now bench) 0 1).alone fun s ↦ .summary s inquiry

/-- Gathers statistics with scripted answers. -/
def gatherScripted (script : Script) (inquiry : Inquiry) : Action := fun st bench ↦
  let (outcome, requests) :=
    (st.monitor.gather (st.now bench) script.rank script.size).replay script
  { Turn.ofOutcome st bench outcome fun s ↦ .summary s inquiry with requests := some requests }

end Action

mutual

/-- What a step does. -/
def Step.action : Step → Action
  | .resolve label => fun st bench ↦ .ofOutcome st bench (st.monitor.resolve label) .index
  | .lookup label => fun st bench ↦ .found (.maybeIndex (st.monitor.lookup label)) st bench
  | .setProperties label properties => fun st bench ↦
    .ofOutcome st bench (st.monitor.setProperties label properties) .index
  | .start label => fun st bench ↦
    .ofOutcome st bench (st.monitor.start (st.surroundings bench) label) .index
  | .stop label work => fun st bench ↦
    .ofOutcome st bench (st.monitor.stop (st.surroundings bench) label work) fun _ ↦ .nothing
  | .reset label => fun st bench ↦
    .ofOutcome st bench (st.monitor.reset label) fun _ ↦ .nothing
  | .resetAll => fun st bench ↦
    .ofOutcome st bench (st.monitor.resetAll (st.now bench)) fun _ ↦ .nothing
  | .inspect label => fun st bench ↦ .found (.snapshot (st.monitor.find? label)) st bench
  | .overview => fun st bench ↦ .found (.overview st.monitor) st bench
  | .settings => fun st bench ↦ .found (.settings st.monitor.settings) st bench
  | .events => fun st bench ↦ .found (.names st.monitor.events) st bench
  | .clock move => fun st bench ↦
    .found .nothing st { bench with clock := move.apply bench.clock }
  | .counters thread reading => fun st bench ↦
    .found .nothing st (st.setCounters bench thread reading)
  | .repeated times steps =>
    let actions := actionsOf steps
    Action.inOrder (List.replicate times actions).flatten
  | .panic message => fun st bench ↦
    { answer := .error message, station := st, bench := bench }
  | .parallel bodies => Action.parallel (bodiesOf bodies)
  | .gather none inquiry => Action.gatherAlone inquiry
  | .gather (some script) inquiry => Action.gatherScripted script inquiry
  | .tolerated step =>
    let action := step.action
    fun st bench ↦ { action st bench with tolerated := true }

/-- What several steps do, one by one. -/
def actionsOf : List Step → List Action
  | [] => []
  | step :: rest => step.action :: actionsOf rest

/-- What the steps of several bodies do. -/
def bodiesOf : List (List Step) → List (List Action)
  | [] => []
  | steps :: rest => actionsOf steps :: bodiesOf rest

end

end SectionMonitor
