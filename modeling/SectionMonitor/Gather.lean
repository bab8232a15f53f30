import SectionMonitor.Exchange.Basic
import SectionMonitor.Monitor.Basic
import SectionMonitor.Summary.Basic

/-!
# Gathering

At the end of a job all processes bring their measurements together at rank zero. First they agree
on the labels and on the hardware events, so that all of them take the same steps afterwards; then
they hand over their numbers, section by section. A process that is alone takes no steps.
-/

namespace SectionMonitor

/-! ## Agreement on properties

Every process sends a code for the properties of a section. Those count that a process bound by
name; of several, the ones of the lowest rank. -/

namespace Properties

/-- Set for an exclusive section. -/
def exclusiveBit : Count := 1

/-- Set for a section that communicates. -/
def communicationBit : Count := 2

/-- Set for properties that were bound by name. -/
def explicitBit : Count := 4

/-- The code that a process sends. -/
def code (p : Properties) (binding : Binding) : Count :=
  (if p.exclusive then exclusiveBit else 0) |||
    (if p.kind = .communication then communicationBit else 0) |||
    (if binding = .explicit then explicitBit else 0)

/-- The properties in a code. -/
def ofCode (code : Count) : Properties where
  kind := if code &&& communicationBit != 0 then .communication else .computation
  exclusive := code &&& exclusiveBit != 0

/-- The properties that the lowest rank bound by name, if any rank did. -/
def agreed? (codes : List Count) : Option Properties :=
  (codes.find? fun c ↦ c &&& explicitBit != 0).map ofCode

end Properties

namespace Exchange

/-! ## Steps that a lone process skips -/

/-- The numbers of all processes. -/
def collectReal (distributed : Bool) (value : Float) : Exchange (List Float) :=
  if distributed then gatherReal value done else done [value]

/-- The counts of all processes. -/
def collectCount (distributed : Bool) (value : Count) : Exchange (List Count) :=
  if distributed then gatherCount value done else done [value]

/-- The values of several exchanges, one after the other. -/
def sequence {α β : Type} (f : α → Exchange β) : List α → Exchange (List β)
  | [] => done []
  | a :: rest => (f a).bind fun b ↦ (sequence f rest).bind fun bs ↦ done (b :: bs)

end Exchange

namespace Monitor

open Exchange (collectReal collectCount)

/-! ## Before the exchange -/

/-- Ends the life of the root section, if it has not ended before. -/
def stopRoot (m : Monitor) (now : Duration) : Monitor :=
  match m.rootSection.phase with
  | .idle => m
  | .running since _ =>
    { m with rootSection := m.rootSection.finish (now.saturatingSub since) 0 [] }

/-! ## Agreement on labels and events -/

/-- The labels of several processes, each at its first appearance. -/
def unionLabels (labels : List String) : List String :=
  labels.foldl (fun seen label ↦ if label ∈ seen then seen else seen ++ [label]) []

/-- Registers labels in turn, with what is written to the log. -/
def registerAll : Monitor → List String → Monitor × List Notice
  | m, [] => (m, [])
  | m, label :: rest =>
    let (m', notices) := registerAll (m.register label) rest
    (m', m.registration label ++ notices)

/-- Makes the labels of all processes known to each of them. Rank zero decides the order: its own
labels first, then the others as they appear from rank to rank. -/
def agreeLabels (m : Monitor) : Exchange (List String) :=
  .gatherBuffer (LabelBuffer.encode m.registry.labels) fun buffers ↦
    .broadcast (LabelBuffer.encode (unionLabels (buffers.flatMap LabelBuffer.decode))) fun buffer ↦
      .done (LabelBuffer.decode buffer)

/-- Takes over the hardware events of rank zero. -/
def agreeEvents (m : Monitor) : Exchange (List String) :=
  .broadcast (LabelBuffer.encode m.events) fun buffer ↦ .done (LabelBuffer.decode buffer)

/-- What is written to the log when the own events are not the agreed ones. -/
def eventNotices (m : Monitor) (rank : Nat) (agreed : List String) : List Notice :=
  if agreed = m.events then [] else [.eventsDiffer rank m.events agreed]

/-! ## The numbers -/

/-- The samples of all processes, from their times, volumes and calls. -/
def samplesOf (times volumes : List Float) (calls : List Count) : List Sample :=
  ((times.zip volumes).zip calls).map fun t ↦ ⟨t.1.1, t.1.2, t.2⟩

/-- The counters of each of `ranks` processes, from the counts of all processes by event. -/
def countersOf (ranks : Nat) (byEvent : List (List Count)) : List Reading :=
  (List.range ranks).map fun rank ↦ byEvent.map fun counts ↦ counts.getD rank 0

/-- Hands over what was measured of a section, and gets what rank zero knows of it. -/
def collectSection (distributed : Bool) (events : Nat) (s : Section) : Exchange SectionSummary := do
  let codes ← collectCount distributed (s.properties.code s.binding)
  let times ← collectReal distributed s.totals.elapsed.seconds
  let volumes ← collectReal distributed s.totals.volume
  let calls ← collectCount distributed s.totals.calls
  let byEvent ← Exchange.sequence
    (fun event ↦ collectCount distributed (s.totals.counters.count event)) (List.range events)
  let samples := samplesOf times volumes calls
  pure
    { label := s.label
      properties := (Properties.agreed? codes).getD s.properties
      source := s.source
      samples := samples
      counters := countersOf samples.length byEvent }

/-! ## After the exchange -/

/-- What is written to the log about sections on whose calls the processes disagree. -/
def callNotices (sections : List SectionSummary) : List Notice :=
  (sections.filter fun s ↦ !s.isConsistent).map fun s ↦ .callsDiffer s.label s.callCounts

/-- Closes the timeline and, on rank zero, puts the summary together. -/
def conclude (m : Monitor) (rank : Nat) (rootTimes : List Float) (events : List String)
    (sections : List SectionSummary) (notices : List Notice) : Outcome (Option Summary) :=
  let m₁ := m.record .finalize
  if rank = 0 then
    let summary : Summary := ⟨rootTimes, m.settings, events, sections⟩
    .success (some summary) m₁
      (notices ++ callNotices sections ++ [.gathered summary.totalTime summary.ranking.length])
  else .success none m₁ (notices ++ [.sent rank])

/-- Brings the measurements of a monitor with a stopped root section together with those of the
other processes. -/
def handOver (m : Monitor) (rank size : Nat) : Exchange (Outcome (Option Summary)) := do
  let distributed := decide (1 < size)
  -- From here on all processes go through the same labels and events, and so through equal steps.
  let labels ← if distributed then m.agreeLabels else pure m.registry.labels
  let (m₁, registered) := if distributed then m.registerAll labels else (m, [])
  let events ← if distributed then m₁.agreeEvents else pure m₁.events
  let notices :=
    registered ++ [.gathering labels.length size rank] ++
      (if distributed then m₁.eventNotices rank events else [])
  let rootTimes ← collectReal distributed m₁.rootSection.totals.elapsed.seconds
  let sections ← Exchange.sequence
    (fun label ↦ collectSection distributed events.length (m₁.sectionAt (m₁.indexOf label))) labels
  if distributed then Exchange.barrier (pure (m₁.conclude rank rootTimes events sections notices))
  else pure (m₁.conclude rank rootTimes events sections notices)

/-- Gathers the statistics of all processes. This is possible once, and while no section runs; a
refused gather can be repeated. The summary is known on rank zero only. -/
def gather (m : Monitor) (now : Duration) (rank size : Nat) :
    Exchange (Outcome (Option Summary)) :=
  if m.gathered then .done (.refusal .alreadyGathered m [])
  else
    match m.running? with
    | some s => .done (.refusal (.runningDuringGather s.label) m [])
    -- The flag is set before the first step: even an exchange that fails half-way is the only one.
    | none => ({ m with gathered := true }.stopRoot now).handOver rank size

end Monitor

end SectionMonitor
