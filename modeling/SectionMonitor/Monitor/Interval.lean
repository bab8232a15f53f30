import SectionMonitor.Monitor.Basic

/-!
# Intervals

Starting a section opens an interval and stopping it adds the interval to the section's totals.
The hardware counters of every measured thread are read at both ends. Which threads are measured
is decided at the start; the stop reads the threads of its own start again.
-/

namespace SectionMonitor

namespace Monitor

/-! ## Counters -/

/-- A thread as a range of one; the largest number names no thread. -/
def singleThread (number : Nat) : List Nat := if number < Count.limit then [number] else []

/-- The threads whose counters an interval reads. -/
def measuredThreads (m : Monitor) (here : Surroundings) : List Nat :=
  match m.scope with
  | .thread number => singleThread number
  | .process =>
    if here.team.inside then singleThread here.team.current
    else List.range here.team.threads

/-- The snapshots at the start of an interval. -/
def takeSnapshots (m : Monitor) (here : Surroundings) : List Snapshot :=
  if m.countersActive then (m.measuredThreads here).map fun t ↦ ⟨t, here.read t⟩ else []

/-- What all threads together counted since their snapshots. -/
def countSince (m : Monitor) (here : Surroundings) (snapshots : List Snapshot) : Reading :=
  if m.countersActive then
    Reading.total (snapshots.map fun s ↦ here.advance s.thread s.reading)
  else []

/-- The readings that the end of an interval takes. -/
def endCalls (m : Monitor) (snapshots : List Snapshot) : List LogEntry :=
  if m.countersActive then snapshots.map fun s ↦ .adapter (.advance s) else []

/-! ## Starting -/

/-- The exclusive section that bars a section from starting, if there is one. -/
def barrier? (m : Monitor) (s : Section) : Option Index := if s.exclusive then m.token else none

/-- Opens an interval of an idle section that nothing bars. -/
def openInterval (m : Monitor) (here : Surroundings) (i : Index) : Monitor :=
  let snapshots := m.takeSnapshots here
  let opened := m.modifySection i fun s ↦ { s with phase := .running here.now snapshots }
  record
    { opened with token := if (m.sectionAt i).exclusive then some i else m.token }
    (.start i here.now.seconds)

/-- Starts the section with a label, which is registered if it is new. -/
def start (m : Monitor) (here : Surroundings) (label : String) : Outcome Index :=
  let i := m.indexOf label
  let m₁ := m.register label
  let s := m₁.sectionAt i
  -- A refused start keeps a label that it has registered.
  if s.isRunning then .refusal (.alreadyRunning label) m₁ (m.registration label)
  else
    match m₁.barrier? s with
    | some active =>
      .refusal (.exclusiveOverlap label ((m₁.label? active).getD "")) m₁ (m.registration label)
    | none =>
      { result := .ok i
        monitor := m₁.openInterval here i
        log :=
          (m.registration label).map .notice ++
            (m₁.takeSnapshots here).map (fun s ↦ .adapter (.read s.thread)) ++
            [.notice (.started label)] }

/-! ## Stopping -/

/-- The work that the measured program states for an interval: so much per unit, and how many
units. -/
structure Work where
  perUnit : Float := 0
  units : Count := 1
  deriving DecidableEq, Repr

/-- The stated volume. Work that is not positive counts as none. -/
def Work.volume (w : Work) : Float := if w.perUnit > 0 then w.perUnit * w.units.toFloat else 0

/-- The volume of an interval, from the one source that its section has. -/
def intervalVolume (m : Monitor) (here : Surroundings) (source : VolumeSource) (counted : Reading)
    (work : Work) : Float :=
  match source with
  | .adapterDerived mode => if m.countersActive then here.derive mode counted else 0
  | .userSupplied => work.volume
  | .timeOnly => 0

/-- The question that a derived volume puts to the adapter. -/
def deriveCalls (m : Monitor) (source : VolumeSource) (counted : Reading) : List LogEntry :=
  match source with
  | .adapterDerived mode => if m.countersActive then [.adapter (.derive mode counted)] else []
  | _ => []

/-- Closes the interval of the section with a handle and gives back the token if it holds it. -/
def closeInterval (m : Monitor) (here : Surroundings) (i : Index) (elapsed : Duration)
    (volume : Float) (counted : Reading) : Monitor :=
  let closed := m.modifySection i fun s ↦ s.finish elapsed volume counted
  record { closed with token := if m.token = some i then none else m.token }
    (.stop i here.now.seconds volume)

/-- Stops the section with a label and attributes the work of the interval. -/
def stop (m : Monitor) (here : Surroundings) (label : String) (work : Work) : Outcome Unit :=
  match m.lookup label with
  | none => .refusal (.notRunning label) m []
  | some i =>
    let s := m.sectionAt i
    match s.phase with
    | .idle => .refusal (.notRunning label) m []
    | .running since snapshots =>
      let elapsed := here.now.saturatingSub since
      -- The threads are those of the snapshots, whoever is in the team by now.
      let counted := m.countSince here snapshots
      let volume := m.intervalVolume here s.source counted work
      { result := .ok ()
        monitor := m.closeInterval here i elapsed volume counted
        log :=
          m.endCalls snapshots ++ m.deriveCalls s.source counted ++
            [.notice (.stopped label elapsed volume)] }

end Monitor

end SectionMonitor
