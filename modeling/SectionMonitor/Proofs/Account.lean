import SectionMonitor.Proofs.Agreement
import SectionMonitor.Proofs.Lockstep
import SectionMonitor.Proofs.Replica

/-!
# What a process tells when it gathers

How many steps a gather has is not known beforehand: it depends on the labels and events that the
processes of a job agree on first. A `Topic` is what one step is about, and the `itinerary` of
labels and events lists the topics of a gather in order.

`Process.account` is a gather that reads from the process what it tells about a topic, without the
handles that labels have in its own registry; a process that is ready and not alone gathers in this
way (`Process.gather_eq_account`). One that is alone takes no steps (`Process.gather_alone`).
-/

namespace SectionMonitor

open Exchange (Request collectReal collectCount)

/-! ## What a process has to tell -/

/-- What is told of a section: its time, its volume and its calls. -/
def Section.sample (s : Section) : Sample :=
  ⟨s.totals.elapsed.seconds, s.totals.volume, s.totals.calls⟩

/-- What a process tells of a section. -/
def Section.requests (s : Section) (events : ℕ) : List Request :=
  [.gatherCount (s.properties.code s.binding), .gatherReal s.totals.elapsed.seconds,
    .gatherReal s.totals.volume, .gatherCount s.totals.calls] ++
    (List.range events).map fun event ↦ .gatherCount (s.totals.counters.count event)

/-- What a process makes of its section when it hears of the sections of some processes. -/
def Section.summarize (s : Section) (events : ℕ) (heard : List Section) : SectionSummary where
  label := s.label
  properties :=
    (Properties.agreed? (heard.map fun t ↦ t.properties.code t.binding)).getD s.properties
  source := s.source
  samples := heard.map Section.sample
  counters := heard.map fun t ↦ (List.range events).map t.totals.counters.count

/-- One process of a job, at the time of its gather. -/
structure Process where
  monitor : Monitor
  now : Duration

/-- What a collective step of a gather is about. -/
inductive Topic where
  /-- The own labels. -/
  | labels
  /-- The labels of all processes. -/
  | union
  /-- The hardware events. -/
  | events
  | lifetime
  | properties (label : String)
  | time (label : String)
  | volume (label : String)
  | calls (label : String)
  | count (label : String) (event : ℕ)
  | farewell

/-- The kinds of collective steps. -/
inductive Collective where
  | gatherReal
  | gatherCount
  | gatherBuffer
  | broadcast
  | barrier
  deriving DecidableEq

/-- The kind of step that a request asks for. -/
def Exchange.Request.collective : Request → Collective
  | .gatherReal _ => .gatherReal
  | .gatherCount _ => .gatherCount
  | .gatherBuffer _ => .gatherBuffer
  | .broadcast _ => .broadcast
  | .barrier => .barrier

/-- The kind of step that a topic is dealt with in. -/
def Topic.collective : Topic → Collective
  | .labels => .gatherBuffer
  | .union | .events => .broadcast
  | .lifetime | .time _ | .volume _ => .gatherReal
  | .properties _ | .calls _ | .count _ _ => .gatherCount
  | .farewell => .barrier

/-- The topics of one section. -/
def sectionTopics (events : ℕ) (label : String) : List Topic :=
  [.properties label, .time label, .volume label, .calls label] ++
    (List.range events).map (.count label)

/-- The topics of a gather, once labels and events are agreed. -/
def itinerary (labels : List String) (events : ℕ) : List Topic :=
  [.labels, .union, .events, .lifetime] ++ labels.flatMap (sectionTopics events) ++ [.farewell]

/-- The part of an itinerary before the farewell has no barrier. -/
theorem exists_itinerary_eq (labels : List String) (events : ℕ) :
    ∃ before, itinerary labels events = before ++ [.farewell] ∧
      ∀ topic ∈ before, topic.collective ≠ .barrier := by
  refine ⟨_, rfl, fun topic htopic hbarrier ↦ ?_⟩
  have hfarewell : topic = .farewell := by
    cases topic <;> first | rfl | cases hbarrier
  subst hfarewell
  simp [sectionTopics] at htopic

namespace Process

variable (p : Process)

/-- A process whose gather takes its steps: one that has not gathered and has no open interval. -/
structure Ready (p : Process) : Prop where
  reachable : p.monitor.Reachable
  ungathered : p.monitor.gathered = false
  idle : ∀ s ∈ p.monitor.sections, s.isRunning = false

/-- How long the process was monitored. -/
def lifetime : Float := (p.monitor.lifetime p.now).seconds

/-- What the process says on a topic. What it would broadcast as the union of all labels is given;
only that of rank zero is heard. -/
def request (union : Buffer) : Topic → Request
  | .labels => .gatherBuffer (LabelBuffer.encode p.monitor.registry.labels)
  | .union => .broadcast union
  | .events => .broadcast (LabelBuffer.encode p.monitor.events)
  | .lifetime => .gatherReal p.lifetime
  | .properties label =>
    .gatherCount ((p.monitor.sectionOf label).properties.code (p.monitor.sectionOf label).binding)
  | .time label => .gatherReal (p.monitor.sectionOf label).totals.elapsed.seconds
  | .volume label => .gatherReal (p.monitor.sectionOf label).totals.volume
  | .calls label => .gatherCount (p.monitor.sectionOf label).totals.calls
  | .count label event => .gatherCount ((p.monitor.sectionOf label).totals.counters.count event)
  | .farewell => .barrier

/-- The kind of a step depends on its topic only. -/
theorem collective_request (union : Buffer) (topic : Topic) :
    (p.request union topic).collective = topic.collective := by
  cases topic <;> rfl

/-- The monitor with an ended root section and all labels of the job. -/
def joined (labels : List String) : Monitor := ((p.monitor.sealed p.now).registerAll labels).1

/-- What is written to the log while processes agree. -/
def notices (rank size : ℕ) (labels events : List String) : List Notice :=
  ((p.monitor.sealed p.now).registerAll labels).2 ++ [.gathering labels.length size rank] ++
    p.monitor.eventNotices rank events

/-- The gather of a process that is not alone, in terms of what it knows of each label. -/
def account (rank size : ℕ) : Exchange (Outcome (Option Summary)) :=
  p.monitor.agreeLabels.bind fun labels ↦
    p.monitor.agreeEvents.bind fun events ↦
      (collectReal true p.lifetime).bind fun rootTimes ↦
        (Exchange.sequence (fun label ↦
          Monitor.collectSection true events.length (p.monitor.sectionOf label)) labels).bind
          fun sections ↦
            .barrier (.done ((p.joined labels).conclude rank rootTimes events sections
              (p.notices rank size labels events)))

end Process

/-! ## The numbers of a section -/

namespace Exchange

variable {α β : Type}

theorem sequence_congr {f g : α → Exchange β} {as : List α} (h : ∀ a ∈ as, f a = g a) :
    sequence f as = sequence g as := by
  induction as with
  | nil => rfl
  | cons a as ih =>
    rw [sequence, sequence, h a List.mem_cons_self,
      ih fun b hb ↦ h b (List.mem_cons_of_mem a hb)]

theorem sequence_done (f : α → β) (as : List α) :
    sequence (fun a ↦ done (f a)) as = done (as.map f) := by
  induction as with
  | nil => rfl
  | cons a as ih =>
    rw [sequence, ih]
    rfl

end Exchange

namespace Monitor

theorem samplesOf_map (heard : List Section) :
    samplesOf (heard.map fun s ↦ s.totals.elapsed.seconds) (heard.map fun s ↦ s.totals.volume)
      (heard.map fun s ↦ s.totals.calls) = heard.map Section.sample := by
  rw [samplesOf, List.zip_map', List.zip_map', List.map_map]
  rfl

/-- Counts that were gathered event by event are handed out process by process. -/
theorem countersOf_map (events : ℕ) (heard : List Section) :
    countersOf heard.length
        ((List.range events).map fun event ↦ heard.map fun s ↦ s.totals.counters.count event)
      = heard.map fun s ↦ (List.range events).map s.totals.counters.count := by
  apply List.ext_getElem (by simp [countersOf])
  intro rank hleft hright
  rw [List.length_map] at hright
  simp [countersOf, List.getD_eq_getElem?_getD, hright, Function.comp_def]

/-- What is put together from the numbers of some processes is what is made of their sections. -/
theorem summarize_of_heard (s : Section) (events : ℕ) (heard : List Section) :
    ({ label := s.label
       properties :=
        (Properties.agreed? (heard.map fun t ↦ t.properties.code t.binding)).getD s.properties
       source := s.source
       samples := samplesOf (heard.map fun t ↦ t.totals.elapsed.seconds)
        (heard.map fun t ↦ t.totals.volume) (heard.map fun t ↦ t.totals.calls)
       counters := countersOf (samplesOf (heard.map fun t ↦ t.totals.elapsed.seconds)
          (heard.map fun t ↦ t.totals.volume) (heard.map fun t ↦ t.totals.calls)).length
        ((List.range events).map fun event ↦
          heard.map fun t ↦ t.totals.counters.count event) } : SectionSummary)
      = s.summarize events heard := by
  rw [samplesOf_map, List.length_map, countersOf_map, Section.summarize]

theorem collectSection_alone (events : ℕ) (s : Section) :
    collectSection false events s = .done (s.summarize events [s]) := by
  have hcounts := Exchange.sequence_done (fun event ↦ [s.totals.counters.count event])
    (List.range events)
  rw [← summarize_of_heard]
  simp only [collectSection, collectCount, collectReal, Bool.false_eq_true, if_false, hcounts,
    Exchange.bind_eq, Exchange.pure_eq, Exchange.bind, List.map_cons, List.map_nil]

end Monitor

/-! ## Gathering as an account -/

namespace Process

variable {p : Process}

/-- A process that is ready ends its root section and hands over its measurements. -/
theorem Ready.gather_eq_handOver (h : p.Ready) (rank size : ℕ) :
    p.monitor.gather p.now rank size = (p.monitor.sealed p.now).handOver rank size := by
  have hidle : p.monitor.running? = none := Monitor.running?_eq_none_iff.mpr h.idle
  rw [Monitor.gather, h.ungathered, hidle]
  rfl

/-- **What a gather is.** A process that is ready and not alone tells what it knows. -/
theorem gather_eq_account (h : p.Ready) (rank : ℕ) {size : ℕ} (hsize : 1 < size) :
    p.monitor.gather p.now rank size = p.account rank size := by
  have hin : (p.monitor.sealed p.now).InStep := h.reachable.inStep.sealed p.now
  have hlabels : (p.monitor.sealed p.now).agreeLabels = p.monitor.agreeLabels := by
    rw [Monitor.agreeLabels, Monitor.registry_sealed, ← Monitor.agreeLabels]
  rw [h.gather_eq_handOver, Monitor.handOver, decide_eq_true hsize]
  simp only [if_true, Exchange.bind_eq, Exchange.pure_eq, hlabels]
  refine congrArg _ (funext fun labels ↦ ?_)
  -- From here on the process works with the labels of the job, but knows the same of each.
  have hevents : (p.joined labels).events = p.monitor.events := by
    rw [joined, Monitor.events_registerAll, Monitor.events_sealed]
  have hagree : (p.joined labels).agreeEvents = p.monitor.agreeEvents := by
    rw [Monitor.agreeEvents, hevents, ← Monitor.agreeEvents]
  have hlifetime : (p.joined labels).rootSection.totals.elapsed.seconds = p.lifetime := by
    rw [joined, Monitor.rootSection_registerAll, Monitor.elapsed_sealed, lifetime]
  have hsections (events : ℕ) :
      Exchange.sequence (fun label ↦ Monitor.collectSection true events
          ((p.joined labels).sectionAt ((p.joined labels).indexOf label))) labels
        = Exchange.sequence (fun label ↦
            Monitor.collectSection true events (p.monitor.sectionOf label)) labels := by
    refine Exchange.sequence_congr fun label hmem ↦ ?_
    rw [joined, hin.sectionAt_registerAll hmem, Monitor.sectionOf_sealed]
  have hnotices (events : List String) :
      (p.joined labels).eventNotices rank events = p.monitor.eventNotices rank events := by
    rw [Monitor.eventNotices, hevents, ← Monitor.eventNotices]
  simp only [← joined.eq_def, hagree, hlifetime, hsections, hnotices, notices]

/-- **What a gather is for a process that is alone.** It takes no steps and speaks of its own
labels and events. -/
theorem gather_alone (h : p.Ready) (rank : ℕ) {size : ℕ} (hsize : ¬1 < size) :
    p.monitor.gather p.now rank size
      = .done ((p.monitor.sealed p.now).conclude rank [p.lifetime] p.monitor.events
          (p.monitor.registry.labels.map fun label ↦
            (p.monitor.sectionOf label).summarize p.monitor.events.length
              [p.monitor.sectionOf label])
          [.gathering p.monitor.registry.labels.length size rank]) := by
  have hin : (p.monitor.sealed p.now).InStep := h.reachable.inStep.sealed p.now
  have hsections : Exchange.sequence (fun label ↦
        Monitor.collectSection false p.monitor.events.length
          ((p.monitor.sealed p.now).sectionAt ((p.monitor.sealed p.now).indexOf label)))
        p.monitor.registry.labels
      = .done (p.monitor.registry.labels.map fun label ↦
          (p.monitor.sectionOf label).summarize p.monitor.events.length
            [p.monitor.sectionOf label]) := by
    rw [← Exchange.sequence_done]
    refine Exchange.sequence_congr fun label hmem ↦ ?_
    rw [hin.sectionAt_indexOf (by rwa [Monitor.registry_sealed]), Monitor.sectionOf_sealed,
      Monitor.collectSection_alone]
  rw [h.gather_eq_handOver, Monitor.handOver, decide_eq_false hsize]
  simp only [Bool.false_eq_true, if_false, Exchange.bind_eq, Exchange.pure_eq, Exchange.bind,
    Monitor.registry_sealed, Monitor.events_sealed, hsections, collectReal,
    Monitor.elapsed_sealed, List.nil_append, List.append_nil]
  rfl

end Process

end SectionMonitor
