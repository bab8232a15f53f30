import SectionMonitor.Proofs.Gather

/-!
# The summary of a job

A gather loses nothing and credits nothing to anybody else. `Job.exists_joined` brings the two
ways of gathering together: a process that is alone takes no steps and speaks of its own labels,
the processes of a larger job speak of the labels that they agreed on, and both lead to
`Job.summary` of the labels of all processes. What a summary says about a label and a rank is then
read off its definition.
-/

namespace SectionMonitor

open Exchange (together)

/-! ## Both ways of gathering -/

theorem Monitor.result_conclude (m : Monitor) (rank : ℕ) (rootTimes : List Float)
    (events : List String) (sections : List SectionSummary) (notices : List Notice) :
    (m.conclude rank rootTimes events sections notices).result
      = .ok (if rank = 0 then some ⟨rootTimes, m.settings, events, sections⟩ else none) := by
  rw [conclude]
  split_ifs <;> rfl

namespace Process

/-- A process that is alone has no labels to register. -/
theorem Ready.joined_labels {p : Process} (h : p.Ready) :
    p.joined p.monitor.registry.labels = p.monitor.sealed p.now :=
  (h.reachable.inStep.sealed p.now).registerAll_of_known (by simp)

end Process

namespace Job

variable (job : Job)

/-- The labels of all processes, each at its first appearance. -/
def labels : List String :=
  Monitor.unionLabels (job.processes.flatMap fun p ↦ p.monitor.registry.labels)

/-- Labels whose lengths can be written come through the agreement. -/
theorem agreedLabels_eq
    (hfits : ∀ p ∈ job.processes, ∀ label ∈ p.monitor.registry.labels, LabelBuffer.Fits label) :
    job.agreedLabels = job.labels := by
  have hbuffers : (job.processes.map fun p ↦
        LabelBuffer.encode p.monitor.registry.labels).flatMap LabelBuffer.decode
      = job.processes.flatMap fun p ↦ p.monitor.registry.labels := by
    rw [List.flatMap_map]
    exact List.flatMap_congr fun p hp ↦ LabelBuffer.decode_encode (hfits p hp)
  rw [agreedLabels, union, hbuffers, ← labels]
  refine LabelBuffer.decode_encode fun label hlabel ↦ ?_
  obtain ⟨p, hp, hmem⟩ := List.mem_flatMap.mp (Monitor.mem_unionLabels.mp hlabel)
  exact hfits p hp label hmem

theorem labels_of_alone (hothers : job.others = []) (hready : job.root.Ready) :
    job.labels = job.root.monitor.registry.labels := by
  rw [labels, processes, hothers, List.flatMap_cons, List.flatMap_nil, List.append_nil,
    Monitor.unionLabels_of_nodup hready.reachable.inStep.nodup]

/-- A job of one process. -/
theorem together_exchanges_of_alone (hothers : job.others = []) (hready : job.root.Ready) :
    ∃ outcome, together job.exchanges = some [outcome] ∧
      outcome.result = .ok (some (job.summary job.labels job.root.monitor.events)) ∧
      outcome.monitor = (job.root.monitor.sealed job.root.now).record .finalize := by
  have hprocesses : job.processes = [job.root] := by rw [processes, hothers]
  have hsize : ¬1 < job.size := by
    rw [size, hprocesses, List.length_singleton]
    omega
  have hexchanges : job.exchanges = [job.root.monitor.gather job.root.now 0 job.size] := by
    rw [exchanges, hprocesses]
    rfl
  rw [hexchanges, Process.gather_alone hready 0 hsize]
  refine ⟨_, rfl, ?_, Monitor.monitor_conclude ..⟩
  rw [Monitor.result_conclude, if_pos rfl, summary, job.labels_of_alone hothers hready, hprocesses,
    Monitor.settings_sealed]
  congr 4
  funext label
  rw [sectionSummary, hprocesses]
  rfl

/-- What a process of a larger job gets depends on its rank. -/
theorem result_conclusion (p : Process) (rank : ℕ) :
    (job.conclusion p rank).result
      = .ok (if rank = 0 then
          some { job.summary job.agreedLabels job.agreedEvents with settings := p.monitor.settings }
        else none) := by
  rw [conclusion, Monitor.result_conclude, Process.joined, Monitor.settings_registerAll,
    Monitor.settings_sealed]
  rfl

/-- A job of several processes. -/
theorem together_exchanges (hothers : job.others ≠ []) (hready : ∀ p ∈ job.processes, p.Ready) :
    together job.exchanges = some (job.processes.zipIdx.map fun p ↦ job.conclusion p.1 p.2) := by
  rw [← Exchange.map_fst_together_recorded, job.together_recorded hothers hready, Option.map_some,
    List.map_map]
  rfl

/-- Rank zero gets the summary of what a larger job agreed on, and every other process gets
nothing. -/
theorem map_result_conclusion :
    (job.processes.zipIdx.map fun p ↦ job.conclusion p.1 p.2).map Outcome.result
      = .ok (some (job.summary job.agreedLabels job.agreedEvents))
        :: List.replicate job.others.length (.ok none) := by
  rw [processes, List.zipIdx_cons, List.map_cons, List.map_cons, result_conclusion, if_pos rfl,
    List.map_map]
  congr 1
  rw [List.eq_replicate_iff]
  refine ⟨by simp, fun result hresult ↦ ?_⟩
  obtain ⟨p, hp, rfl⟩ := List.mem_map.mp hresult
  have hrank : p.2 ≠ 0 := by
    have hle := List.le_snd_of_mem_zipIdx hp
    omega
  rw [Function.comp_apply, result_conclusion, if_neg hrank]

/-- If lengths can be written, what it agreed on are the labels of all processes. -/
theorem exists_summary_of_others (hothers : job.others ≠ [])
    (hready : ∀ p ∈ job.processes, p.Ready)
    (hfits : ∀ p ∈ job.processes, ∀ label ∈ p.monitor.registry.labels, LabelBuffer.Fits label) :
    ∃ outcomes, together job.exchanges = some outcomes ∧
      outcomes.map Outcome.result
        = .ok (some (job.summary job.labels job.agreedEvents))
          :: List.replicate job.others.length (.ok none) := by
  refine ⟨_, job.together_exchanges hothers hready, ?_⟩
  rw [map_result_conclusion, job.agreedLabels_eq hfits]

/-- **Both ways of gathering.** Every process of a job that is ready ends with its own sections and
the labels of the job. Rank zero gets the summary of these labels, and every other process gets
nothing. -/
theorem exists_joined (hready : ∀ p ∈ job.processes, p.Ready) :
    ∃ labels events outcomes, together job.exchanges = some outcomes ∧
      outcomes.map Outcome.result
        = .ok (some (job.summary labels events))
          :: List.replicate job.others.length (.ok none) ∧
      outcomes.map Outcome.monitor
        = job.processes.map (fun p ↦ (p.joined labels).record .finalize) ∧
      ((∀ p ∈ job.processes, ∀ label ∈ p.monitor.registry.labels, LabelBuffer.Fits label) →
        labels = job.labels) := by
  by_cases hothers : job.others = []
  · have hroot : job.root.Ready := hready _ List.mem_cons_self
    obtain ⟨outcome, htogether, hresult, hm⟩ := job.together_exchanges_of_alone hothers hroot
    refine ⟨job.labels, job.root.monitor.events, [outcome], htogether, ?_, ?_, fun _ ↦ rfl⟩
    · rw [List.map_singleton, hresult, hothers]
      rfl
    · rw [job.labels_of_alone hothers hroot, processes, hothers, List.map_singleton,
        List.map_singleton, hm, hroot.joined_labels]
  · refine ⟨job.agreedLabels, job.agreedEvents, _, job.together_exchanges hothers hready,
      job.map_result_conclusion, ?_, job.agreedLabels_eq⟩
    have hconcluded : (Outcome.monitor ∘ fun p : Process × ℕ ↦ job.conclusion p.1 p.2)
        = (fun p ↦ (p.joined job.agreedLabels).record .finalize) ∘ Prod.fst :=
      funext fun p ↦ Monitor.monitor_conclude ..
    rw [List.map_map, hconcluded, ← List.map_map, List.zipIdx_map_fst]

/-- **What rank zero and the others get.** If lengths can be written, the summary is that of the
labels of all processes. -/
theorem exists_summary (hready : ∀ p ∈ job.processes, p.Ready)
    (hfits : ∀ p ∈ job.processes, ∀ label ∈ p.monitor.registry.labels, LabelBuffer.Fits label) :
    ∃ events outcomes, together job.exchanges = some outcomes ∧
      outcomes.map Outcome.result
        = .ok (some (job.summary job.labels events))
          :: List.replicate job.others.length (.ok none) := by
  obtain ⟨labels, events, outcomes, htogether, hresults, -, hlabels⟩ := job.exists_joined hready
  rw [hlabels hfits] at hresults
  exact ⟨events, outcomes, htogether, hresults⟩

end Job

/-! ## What the summary says -/

namespace Monitor

variable {m : Monitor}

/-- What a monitor tells of a label: of its section, or zeros if the label is unknown. -/
def localSample (m : Monitor) (label : String) : Sample :=
  match m.find? label with
  | some (_, s) => s.sample
  | none => ⟨0, 0, 0⟩

theorem seconds_zero : Duration.zero.seconds = 0 := by decide +kernel

/-- A section that a label would get only now has nothing to tell. -/
theorem sample_sectionOf (h : m.InStep) (label : String) :
    (m.sectionOf label).sample = m.localSample label := by
  obtain ⟨hfind, hnew⟩ | ⟨i, hfind⟩ := h.find?_cases label
  · rw [localSample, hfind, hnew, Section.sample, seconds_zero]
  · rw [localSample, hfind]

end Monitor

namespace Job

variable (job : Job)

theorem map_label_summary (labels events : List String) :
    (job.summary labels events).sections.map SectionSummary.label = labels := by
  rw [summary, List.map_map]
  have hlabel : SectionSummary.label ∘ job.sectionSummary events.length = id := by
    funext label
    exact Monitor.label_sectionOf _ _
  rw [hlabel, List.map_id]

/-- **No section is lost, doubled, or credited to another label or rank.** A job whose processes
are ready gathers the summary on rank zero and nothing on the others. The summary lists the labels
of rank zero as registered there and then the other labels at their first appearance; each section
has, rank by rank, what the process of that rank tells of its label. A writer insists that the
lengths of labels fit into their records, and so does the statement. -/
theorem gather_credits_every_section (hready : ∀ p ∈ job.processes, p.Ready)
    (hfits : ∀ p ∈ job.processes, ∀ label ∈ p.monitor.registry.labels, LabelBuffer.Fits label) :
    ∃ summary outcomes, together job.exchanges = some outcomes ∧
      outcomes.map Outcome.result
        = .ok (some summary) :: List.replicate job.others.length (.ok none) ∧
      summary.sections.map SectionSummary.label
        = job.root.monitor.registry.labels
          ++ ((job.others.flatMap fun p ↦ p.monitor.registry.labels).filter fun label ↦
              label ∉ job.root.monitor.registry.labels).eraseDups ∧
      (summary.sections.map SectionSummary.label).Nodup ∧
      (∀ label, label ∈ summary.sections.map SectionSummary.label
        ↔ ∃ p ∈ job.processes, label ∈ p.monitor.registry.labels) ∧
      (∀ s ∈ summary.sections,
        s.samples = job.processes.map fun p ↦ p.monitor.localSample s.label) ∧
      summary.rootTimes = job.processes.map fun p ↦ (p.monitor.lifetime p.now).seconds := by
  obtain ⟨events, outcomes, htogether, hresults⟩ := job.exists_summary hready hfits
  refine ⟨job.summary job.labels events, outcomes, htogether, hresults, ?_, ?_, ?_, ?_, rfl⟩
  · have hroot : Monitor.unionLabels job.root.monitor.registry.labels
        = job.root.monitor.registry.labels :=
      Monitor.unionLabels_of_nodup (hready _ List.mem_cons_self).reachable.inStep.nodup
    rw [map_label_summary, labels, processes, List.flatMap_cons, Monitor.unionLabels_append, hroot]
  · rw [map_label_summary]
    exact Monitor.nodup_unionLabels _
  · intro label
    rw [map_label_summary, labels, Monitor.mem_unionLabels, List.mem_flatMap]
  · intro s hs
    obtain ⟨label, -, rfl⟩ := List.mem_map.mp hs
    have hlabel : (job.sectionSummary events.length label).label = label :=
      Monitor.label_sectionOf _ _
    have hsamples : (job.sectionSummary events.length label).samples
        = job.processes.map fun p ↦ (p.monitor.sectionOf label).sample := List.map_map
    rw [hlabel, hsamples]
    refine List.map_congr_left fun p hp ↦ ?_
    exact Monitor.sample_sectionOf (hready p hp).reachable.inStep label

/-- The label in common stays the second one, and what was measured of it is credited to rank
one. -/
theorem pair_credits_every_section :
    (∀ p ∈ pair.processes, p.Ready) ∧
      (∀ p ∈ pair.processes, ∀ label ∈ p.monitor.registry.labels, LabelBuffer.Fits label) ∧
      ∃ summary outcomes, together pair.exchanges = some outcomes ∧
        outcomes.map Outcome.result = [.ok (some summary), .ok none] ∧
        summary.sections.map SectionSummary.label = ["assemble", "solve", "exchange"] ∧
        ∀ s ∈ summary.sections, s.label = "solve" → s.callCounts = [0, 1] := by
  have hfits : ∀ p ∈ pair.processes, ∀ label ∈ p.monitor.registry.labels,
      LabelBuffer.Fits label := by
    unfold LabelBuffer.Fits
    decide +kernel
  obtain ⟨summary, outcomes, htogether, hresults, hlabels, -, -, hsamples, -⟩ :=
    pair.gather_credits_every_section ready_pair hfits
  refine ⟨ready_pair, hfits, summary, outcomes, htogether, hresults, ?_, ?_⟩
  · rw [hlabels]
    decide +kernel
  · intro s hs hlabel
    rw [SectionSummary.callCounts, hsamples s hs, hlabel]
    decide +kernel

end Job

end SectionMonitor
