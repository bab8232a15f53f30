import SectionMonitor.Proofs.Account

/-!
# A job gathers

All processes of a job gather. What each of them tells is known (`Process.account`), and so is what
becomes of it when all of them take their steps together: `Job.together_recorded` gives, for every
rank, the outcome of the gather and the requests that were made on the way. That the processes stay
in step is then a fact about one list of topics, which all of them have gone through.
-/

namespace SectionMonitor

open Exchange (Request Runs collectReal collectCount together recorded)

/-! ## Going through the topics together -/

namespace Monitor

variable {ι : Type} {ps : List ι}

/-- **What the processes of a job make of one section.** Rank zero hears of the sections of all of
them; every process tells of its own. -/
theorem runs_collectSection (events : ℕ) (s : Section) (t : ι → Section) :
    Runs ps (collectSection true events s) (fun p ↦ collectSection true events (t p))
      (s.summarize events (s :: ps.map t), s.requests events)
      fun p ↦ ((t p).summarize events [], (t p).requests events) := by
  simp only [collectSection, collectCount, collectReal, if_true, Exchange.bind_eq,
    Exchange.pure_eq]
  refine Runs.congr (Runs.bind (Runs.gatherCount _ _) (Runs.bind (Runs.gatherReal _ _)
    (Runs.bind (Runs.gatherReal _ _) (Runs.bind (Runs.gatherCount _ _)
      (Runs.bind (Runs.sequence (fun event ↦ Runs.gatherCount _ _) _) (Runs.done _ _)))))) ?_ ?_
  · refine Prod.ext ?_ ?_
    · have hroot := summarize_of_heard s events (s :: ps.map t)
      simpa [Function.comp_def] using hroot
    · simp [Section.requests, List.map_eq_flatMap]
  · intro p
    refine Prod.ext (summarize_of_heard (t p) events []) ?_
    simp [Section.requests, List.map_eq_flatMap]

/-- All processes arrive at the labels that rank zero decodes from its own broadcast. -/
theorem runs_agreeLabels (m : Monitor) (n : ι → Monitor) (union : Buffer)
    (hunion : union = LabelBuffer.encode (unionLabels
      ((LabelBuffer.encode m.registry.labels ::
        ps.map fun p ↦ LabelBuffer.encode (n p).registry.labels).flatMap LabelBuffer.decode))) :
    Runs ps m.agreeLabels (fun p ↦ (n p).agreeLabels)
      (LabelBuffer.decode union,
        [.gatherBuffer (LabelBuffer.encode m.registry.labels), .broadcast union])
      fun p ↦ (LabelBuffer.decode union,
        [.gatherBuffer (LabelBuffer.encode (n p).registry.labels), .broadcast []]) := by
  intro β f g past q
  simp only [agreeLabels, Exchange.bind, Exchange.recordedFrom]
  rw [Exchange.lockstep_gatherBuffer, ← hunion, Exchange.lockstep_broadcast]
  simp only [List.append_assoc]
  rfl

theorem runs_agreeEvents (m : Monitor) (n : ι → Monitor) :
    Runs ps m.agreeEvents (fun p ↦ (n p).agreeEvents)
      (LabelBuffer.decode (LabelBuffer.encode m.events),
        [.broadcast (LabelBuffer.encode m.events)])
      fun p ↦ (LabelBuffer.decode (LabelBuffer.encode m.events),
        [.broadcast (LabelBuffer.encode (n p).events)]) := by
  intro β f g past q
  exact Exchange.lockstep_broadcast ..

end Monitor

/-! ## Jobs -/

/-- The processes of a job by rank. There is always the one of rank zero. -/
structure Job where
  root : Process
  others : List Process

namespace Job

variable (job : Job)

/-- All processes, by rank. -/
def processes : List Process := job.root :: job.others

def size : ℕ := job.processes.length

/-- What the processes do when all of them gather. -/
def exchanges : List (Exchange (Outcome (Option Summary))) :=
  job.processes.zipIdx.map fun p ↦ p.1.monitor.gather p.1.now p.2 job.size

/-- The buffer in which rank zero broadcasts the labels of all processes. -/
def union : Buffer :=
  LabelBuffer.encode (Monitor.unionLabels
    ((job.processes.map fun p ↦ LabelBuffer.encode p.monitor.registry.labels).flatMap
      LabelBuffer.decode))

/-- What a process would broadcast as the union of all labels. -/
def offer (rank : ℕ) : Buffer := if rank = 0 then job.union else []

/-- The labels that all processes arrive at. -/
def agreedLabels : List String := LabelBuffer.decode job.union

/-- The hardware events that all processes arrive at. -/
def agreedEvents : List String :=
  LabelBuffer.decode (LabelBuffer.encode job.root.monitor.events)

/-- What rank zero makes of the sections of a label. -/
def sectionSummary (events : ℕ) (label : String) : SectionSummary :=
  (job.root.monitor.sectionOf label).summarize events
    (job.processes.map fun p ↦ p.monitor.sectionOf label)

/-- What rank zero makes of some labels and events. -/
def summary (labels events : List String) : Summary where
  rootTimes := job.processes.map Process.lifetime
  settings := job.root.monitor.settings
  events := events
  sections := labels.map (job.sectionSummary events.length)

/-- What the gather leads to for the process with a rank. -/
def conclusion (p : Process) (rank : ℕ) : Outcome (Option Summary) :=
  (p.joined job.agreedLabels).conclude rank (job.processes.map Process.lifetime) job.agreedEvents
    (job.agreedLabels.map (job.sectionSummary job.agreedEvents.length))
    (p.notices rank job.size job.agreedLabels job.agreedEvents)

/-- What a process asks of the others while it gathers. -/
def requests (p : Process) (rank : ℕ) : List Request :=
  (itinerary job.agreedLabels job.agreedEvents.length).map (p.request (job.offer rank))

end Job

/-! ## All accounts of a job -/

/-- Only rank zero makes something of what it heard. -/
theorem Monitor.conclude_of_ne_zero {rank : ℕ} (hrank : rank ≠ 0) (m : Monitor)
    (rootTimes rootTimes' : List Float) (events events' : List String)
    (sections sections' : List SectionSummary) (notices : List Notice) :
    m.conclude rank rootTimes events sections notices
      = m.conclude rank rootTimes' events' sections' notices := by
  rw [conclude, conclude, if_neg hrank, if_neg hrank]

/-- The steps of a gather are about the topics of the itinerary, in order. -/
theorem map_request_itinerary (p : Process) (union : Buffer) (labels : List String) (events : ℕ) :
    (itinerary labels events).map (p.request union)
      = [.gatherBuffer (LabelBuffer.encode p.monitor.registry.labels), .broadcast union] ++
        ([.broadcast (LabelBuffer.encode p.monitor.events)] ++ ([.gatherReal p.lifetime] ++
          (labels.flatMap (fun label ↦ (p.monitor.sectionOf label).requests events)
            ++ [.barrier]))) := by
  have hsections : (labels.flatMap (sectionTopics events)).map (p.request union)
      = labels.flatMap fun label ↦ (p.monitor.sectionOf label).requests events := by
    rw [List.map_flatMap]
    refine List.flatMap_congr fun label _ ↦ ?_
    simp [Section.requests, sectionTopics, Process.request]
  rw [itinerary, List.map_append, List.map_append, hsections]
  simp [Process.request]

namespace Job

variable (job : Job)

/-- **Accounts run through together.** Rank zero arrives at its conclusion, and so does every other
process, although it hears no numbers. -/
theorem runs_account (ps : List (Process × ℕ)) (hps : ps.map Prod.fst = job.others) :
    Runs ps (job.root.account 0 job.size) (fun p ↦ p.1.account p.2 job.size)
      (job.conclusion job.root 0, job.requests job.root 0)
      fun p ↦ ((p.1.joined job.agreedLabels).conclude p.2 [] job.agreedEvents
          (job.agreedLabels.map fun label ↦
            (p.1.monitor.sectionOf label).summarize job.agreedEvents.length [])
          (p.1.notices p.2 job.size job.agreedLabels job.agreedEvents),
        (itinerary job.agreedLabels job.agreedEvents.length).map (p.1.request [])) := by
  have hprocesses : job.processes = job.root :: ps.map Prod.fst := by rw [hps]; rfl
  have hunion : job.union = LabelBuffer.encode (Monitor.unionLabels
      ((LabelBuffer.encode job.root.monitor.registry.labels ::
        ps.map fun p ↦ LabelBuffer.encode p.1.monitor.registry.labels).flatMap
          LabelBuffer.decode)) := by
    rw [union, hprocesses, List.map_cons, List.map_map]
    rfl
  have htimes : job.processes.map Process.lifetime
      = job.root.lifetime :: ps.map fun p ↦ p.1.lifetime := by
    rw [hprocesses, List.map_cons, List.map_map]
    rfl
  have hsections : job.agreedLabels.map (job.sectionSummary job.agreedEvents.length)
      = job.agreedLabels.map fun label ↦
          (job.root.monitor.sectionOf label).summarize job.agreedEvents.length
            (job.root.monitor.sectionOf label :: ps.map fun p ↦ p.1.monitor.sectionOf label) := by
    refine List.map_congr_left fun label _ ↦ ?_
    rw [sectionSummary, hprocesses, List.map_cons, List.map_map]
    rfl
  refine Runs.congr (Runs.bind (Monitor.runs_agreeLabels _ _ job.union hunion)
    (Runs.bind (Monitor.runs_agreeEvents _ _) (Runs.bind (Runs.gatherReal _ _)
      (Runs.bind (Runs.sequence (fun label ↦ Monitor.runs_collectSection _ _ _) _)
        (Runs.barrier _ _))))) ?_ ?_
  · rw [conclusion, htimes, hsections, requests, map_request_itinerary]
    rfl
  · intro p
    rw [map_request_itinerary]
    rfl

/-- **What a gather leads to.** The processes of a job that are all ready run through together.
Each arrives at its conclusion and has made the requests of the itinerary. -/
theorem together_recorded (hothers : job.others ≠ []) (hready : ∀ p ∈ job.processes, p.Ready) :
    together (job.exchanges.map recorded)
      = some (job.processes.zipIdx.map fun p ↦
          (job.conclusion p.1 p.2, job.requests p.1 p.2)) := by
  have hsize : 1 < job.size := by
    rw [size, processes, List.length_cons]
    have hpos := List.length_pos_of_ne_nil hothers
    omega
  have hps : (job.others.zipIdx 1).map Prod.fst = job.others := List.zipIdx_map_fst 1 job.others
  have haccounts : job.exchanges = job.root.account 0 job.size ::
      (job.others.zipIdx 1).map fun p ↦ p.1.account p.2 job.size := by
    rw [exchanges, processes, List.zipIdx_cons, List.map_cons]
    congr 1
    · exact Process.gather_eq_account (hready _ List.mem_cons_self) 0 hsize
    · refine List.map_congr_left fun p hp ↦ ?_
      have hmem : p.1 ∈ job.others := by
        rw [← hps]
        exact List.mem_map_of_mem hp
      exact Process.gather_eq_account (hready _ (List.mem_cons_of_mem _ hmem)) p.2 hsize
  have hrun := (job.runs_account (job.others.zipIdx 1) hps).lockstep_recorded
  rw [haccounts, List.map_cons, List.map_map, together]
  refine hrun.trans ?_
  rw [processes, List.zipIdx_cons, List.map_cons]
  congr 2
  refine List.map_congr_left fun p hp ↦ ?_
  have hrank : p.2 ≠ 0 := by
    have hle := List.le_snd_of_mem_zipIdx hp
    omega
  rw [conclusion, requests, offer, if_neg hrank]
  congr 1
  exact Monitor.conclude_of_ne_zero hrank _ _ _ _ _ _ _ _

/-! ## Keeping in step -/

/-- **A gather keeps all processes in step.** The processes of a job take the same collective steps
in the same order, whatever their labels, bindings and hardware events are: step by step, each of
them speaks on the same topic and says what it knows itself. The last step, and no other, is a
barrier. -/
theorem gather_keeps_in_step (hothers : job.others ≠ []) (hready : ∀ p ∈ job.processes, p.Ready) :
    ∃ runs, together (job.exchanges.map recorded) = some runs ∧
      runs.map Prod.snd = job.processes.zipIdx.map (fun p ↦
        (itinerary job.agreedLabels job.agreedEvents.length).map
          (p.1.request (job.offer p.2))) ∧
      ∀ run ∈ runs,
        run.2.map Request.collective
          = (itinerary job.agreedLabels job.agreedEvents.length).map Topic.collective ∧
        ∃ before, run.2 = before ++ [.barrier] ∧ .barrier ∉ before := by
  refine ⟨_, job.together_recorded hothers hready, ?_, ?_⟩
  · rw [List.map_map]
    rfl
  · intro run hrun
    obtain ⟨p, -, rfl⟩ := List.mem_map.mp hrun
    refine ⟨?_, ?_⟩
    · rw [requests, List.map_map]
      exact List.map_congr_left fun topic _ ↦ Process.collective_request p.1 _ topic
    · obtain ⟨before, hbefore, hnone⟩ :=
        exists_itinerary_eq job.agreedLabels job.agreedEvents.length
      refine ⟨before.map (p.1.request (job.offer p.2)), ?_, ?_⟩
      · rw [requests, hbefore, List.map_append]
        rfl
      · rw [List.mem_map]
        rintro ⟨topic, htopic, heq⟩
        have hcollective := Process.collective_request p.1 (job.offer p.2) topic
        rw [heq] at hcollective
        exact hnone topic htopic hcollective.symm

/-- Two processes with one label in common, which is the second one of rank zero and the first one
of the other. -/
def pair : Job where
  root :=
    ⟨(Monitor.build {} none false .zero).run
      [.call (.resolve "assemble"), .call (.resolve "solve")], .zero⟩
  others :=
    [⟨(Monitor.build {} none false .zero).run
      [.call (.start (.plain .zero) "solve"), .call (.stop (.plain ⟨5⟩) "solve" {}),
        .call (.resolve "exchange")], ⟨7⟩⟩]

theorem ready_pair : ∀ p ∈ pair.processes, p.Ready := by
  intro p hp
  rcases List.mem_cons.mp hp with rfl | hp
  · exact ⟨(Monitor.Reachable.build {} none false .zero).run _, rfl, by decide +kernel⟩
  · obtain rfl := List.mem_singleton.mp hp
    exact ⟨(Monitor.Reachable.build {} none false .zero).run _, rfl, by decide +kernel⟩

theorem pair_keeps_in_step :
    pair.others ≠ [] ∧ (∀ p ∈ pair.processes, p.Ready) ∧
      ∃ runs, together (pair.exchanges.map recorded) = some runs ∧ runs.length = 2 ∧
        ∀ run ∈ runs, run.2.map Request.collective
          = [.gatherBuffer, .broadcast, .broadcast, .gatherReal]
            ++ (List.replicate 3
              [.gatherCount, .gatherReal, .gatherReal, .gatherCount]).flatten ++ [.barrier] := by
  have hothers : pair.others ≠ [] := by simp [pair]
  obtain ⟨runs, hruns, hrequests, hsteps⟩ := pair.gather_keeps_in_step hothers ready_pair
  refine ⟨hothers, ready_pair, runs, hruns, ?_, fun run hrun ↦ ?_⟩
  · have hlength := congrArg List.length hrequests
    rwa [List.length_map] at hlength
  · rw [(hsteps run hrun).1]
    decide +kernel

end Job

end SectionMonitor
