import SectionMonitor.Exchange.Lockstep
import SectionMonitor.Scenario.Step

/-!
# Sessions

A session drives several named monitors on one bench: it builds them, makes replicas and folds
them back, and lets monitors gather as the processes of one job.
-/

namespace SectionMonitor

/-! ## Building a monitor -/

/-- Settings that are named one by one. -/
structure Overrides where
  volumeMode : Option VolumeMode := none
  reportLevel : Option ReportLevel := none
  reportOrder : Option ReportOrder := none
  deriving DecidableEq, Repr

/-- Replaces the settings that are named. -/
def Overrides.apply (o : Overrides) (s : Settings) : Settings where
  volumeMode := o.volumeMode.getD s.volumeMode
  reportLevel := o.reportLevel.getD s.reportLevel
  reportOrder := o.reportOrder.getD s.reportOrder

/-- Everything that is decided before a monitor is built. -/
structure Blueprint where
  /-- The environment that settings are read from, if they are. -/
  environment : Option (List (String × String)) := none
  overrides : Overrides := {}
  adapter : Option Adapter := none
  team : Team := .serial
  traced : Bool := false
  deriving DecidableEq, Repr

namespace Blueprint

/-- The settings, and the unknown values in the environment. -/
def settings (b : Blueprint) : Settings × List UnknownValue :=
  let (settings, unknown) :=
    match b.environment with
    | none => (({} : Settings), [])
    | some entries => Settings.read fun key ↦ entries.lookup key
  (b.overrides.apply settings, unknown)

/-- What reading the settings writes to the log. -/
def settingsLog (b : Blueprint) : List LogEntry :=
  b.settings.2.map fun unknown ↦ .notice (.unknownValue unknown)

/-- Builds a monitor on a bench. -/
def build (b : Blueprint) (bench : Bench) : Station × Bench × List LogEntry :=
  let events := b.adapter.map Adapter.events
  ({ monitor := .build b.settings.1 events b.traced .zero
     epoch := bench.clock
     team := b.team
     adapter := b.adapter.map fun _ ↦ bench.adapters.length },
    { bench with adapters := bench.adapters ++ b.adapter.toList },
    b.settingsLog ++ Monitor.buildLog b.settings.1 events)

end Blueprint

/-! ## Steps of a session -/

/-- A session: named monitors on a bench, and handles that were kept under a name. -/
structure Session where
  bench : Bench := {}
  stations : List (String × Station) := []
  handles : List (String × Index) := []
  deriving DecidableEq, Repr

/-- One step of a session. -/
inductive SessionStep where
  | build (name : String) (blueprint : Blueprint)
  | clock (move : ClockMove)
  | replica (name : String) (thread : Nat) (newName : String)
  | merge (name : String) (replicas : List String)
  | trace (name : String)
  | save (name : String) (label : String) (handle : String)
  | labelOf (name : String) (handle : String)
  /-- Lets the named monitors gather as the ranks of one job. -/
  | cluster (names : List String) (inquiry : Inquiry)
  /-- A step of the program that the named monitor measures. -/
  | measured (name : String) (step : Step)

/-- How a rank of a job fares. -/
inductive RankFinding where
  | gathered (summary : Option Summary)
  | refused (v : Violation)
  /-- Another rank was not ready, so this one did not begin. -/
  | skipped
  deriving DecidableEq, Repr

/-- What a step of a session finds out. -/
inductive SessionFinding where
  | step (finding : Finding)
  | trace (events : Option (List TraceEvent))
  | label (index : Index) (label : Option String)
  | ranks (findings : List RankFinding) (inquiry : Inquiry)
  | unknown (name : String)
  | unknownAny (names : List String)
  deriving DecidableEq, Repr

/-- The answer to a step of a session with all that it brought about. -/
structure SessionReply where
  answer : Except Violation SessionFinding
  log : List LogEntry := []
  requests : Option (List Exchange.Request) := none
  threads : Option (List (List Reply)) := none
  /-- What every rank of a job wrote to its log. -/
  rankLogs : List (List LogEntry) := []

namespace SessionReply

/-- The answer of a step that wrote nothing to the log. -/
def found (finding : SessionFinding) : SessionReply := ⟨.ok finding, [], none, none, []⟩

end SessionReply

namespace Session

/-- The station of a name. -/
def station? (s : Session) (name : String) : Option Station := s.stations.lookup name

/-- The stations without the one of a name. -/
def without (s : Session) (name : String) : Session :=
  { s with stations := s.stations.filter fun p ↦ p.1 ≠ name }

/-- Puts a station under a name, in place of another one. -/
def put (s : Session) (name : String) (st : Station) : Session :=
  { s.without name with stations := (name, st) :: (s.without name).stations }

/-- Takes a station away, if there is one of that name. -/
def take (s : Session) (name : String) : Option Station × Session :=
  (s.station? name, s.without name)

/-- Takes several stations away, in order. Names without a station are passed over. -/
def takeAll : Session → List String → List Station × Session
  | s, [] => ([], s)
  | s, name :: rest =>
    let (st, s₁) := s.take name
    let (sts, s₂) := takeAll s₁ rest
    (st.toList ++ sts, s₂)

/-! ## Jobs -/

/-- Why a monitor cannot begin to gather, if it cannot. -/
def obstacle? (m : Monitor) : Option Violation :=
  if m.gathered then some .alreadyGathered
  else m.running?.map fun s ↦ .runningDuringGather s.label

/-- Lets monitors gather as the ranks of one job, if all of them can begin. -/
def runCluster (bench : Bench) (stations : List Station) :
    List (RankFinding × List LogEntry × Station) :=
  if stations.any fun st ↦ (obstacle? st.monitor).isSome then
    stations.map fun st ↦
      match obstacle? st.monitor with
      | some v => (.refused v, [], st)
      | none => (.skipped, [], st)
  else
    let exchanges := stations.mapIdx fun rank st ↦
      st.monitor.gather (st.now bench) rank stations.length
    match Exchange.together exchanges with
    | none => stations.map fun st ↦ (.skipped, [], st)
    | some outcomes =>
      (stations.zip outcomes).map fun (st, o) ↦
        let st' := { st with monitor := o.monitor }
        match o.result with
        | .ok summary => (.gathered summary, o.log, st')
        | .error v => (.refused v, o.log, st')

/-- Takes the named monitors, lets them gather, and puts them back. If one of them is missing the
others are lost. A job without a process is none. -/
def cluster (s : Session) (names : List String) (inquiry : Inquiry) : SessionReply × Session :=
  let (stations, rest) := s.takeAll names
  if names.isEmpty || stations.length != names.length then (.found (.unknownAny names), rest)
  else
    let done := runCluster s.bench stations
    let reply : SessionReply :=
      { answer := .ok (.ranks (done.map fun d ↦ d.1) inquiry)
        rankLogs := done.map fun d ↦ d.2.1 }
    (reply, (names.zip done).foldl (fun s (name, d) ↦ s.put name d.2.2) rest)

/-! ## Taking a step -/

/-- A step that needs the station of a name. -/
def atStation (s : Session) (name : String) (f : Station → SessionReply × Session) :
    SessionReply × Session :=
  match s.station? name with
  | some st => f st
  | none => (.found (.unknown name), s)

/-- Folds the named monitors back into another one. They are gone afterwards. -/
def merge (s : Session) (name : String) (replicas : List String) : SessionReply × Session :=
  s.atStation name fun st ↦
    -- A monitor is not its own replica, so its name among the replicas is passed over.
    let (stations, rest) := (s.without name).takeAll replicas
    let merged := st.monitor.merge (stations.map Station.monitor)
    ({ answer := merged.result.map fun _ ↦ .step .nothing, log := merged.log },
      rest.put name { st with monitor := merged.monitor })

/-- Takes one step. -/
def step (s : Session) : SessionStep → SessionReply × Session
  | .build name blueprint =>
    let (st, bench, log) := blueprint.build s.bench
    ({ answer := .ok (.step .nothing), log := log }, { s with bench := bench }.put name st)
  | .clock move =>
    (.found (.step .nothing),
      { s with bench := { s.bench with clock := move.apply s.bench.clock } })
  | .replica name thread newName =>
    s.atStation name fun st ↦
      let (replica, notices) := st.monitor.replicate thread
      ({ answer := .ok (.step .nothing), log := notices.map .notice },
        s.put newName { st with monitor := replica })
  | .merge name replicas => s.merge name replicas
  | .trace name =>
    s.atStation name fun st ↦ (.found (.trace (st.monitor.trace.map Array.toList)), s)
  | .save name label handle =>
    s.atStation name fun st ↦
      let i := st.monitor.lookup label
      (.found (.step (.maybeIndex i)),
        { s with handles := i.toList.map (fun i ↦ (handle, i)) ++ s.handles })
  | .labelOf name handle =>
    s.atStation name fun st ↦
      let i := (s.handles.lookup handle).getD .root
      (.found (.label i (st.monitor.label? i)), s)
  | .cluster names inquiry => s.cluster names inquiry
  | .measured name step =>
    s.atStation name fun st ↦
      let t := step.action st s.bench
      let answer : Except Violation SessionFinding :=
        match t.answer with
        | .ok answer => answer.map .step
        | .error message => .ok (.step (.panicked message))
      ({ answer := answer, log := t.log, requests := t.requests, threads := t.threads },
        { s with bench := t.bench }.put name t.station)

/-- Takes several steps. Every answer comes with the session after its step. -/
def run : Session → List SessionStep → List (SessionReply × Session)
  | _, [] => []
  | s, step :: rest =>
    let r := s.step step
    r :: run r.2 rest

end Session

end SectionMonitor
