import SectionMonitor.Proofs.Handles
import SectionMonitor.Proofs.JobSummary
import SectionMonitor.Proofs.Refusals

/-!
# What a gather leaves

A gather reads the sections of a process and reports what all processes make of them. What is
reported may differ from what the process has: other properties may have been agreed on, and other
labels come in between. None of this is written back. `Process.Leaves` says what becomes of a
process: its sections stay as they are, the labels that it lacked follow in the agreed order, and
its root section has ended.

The flag that a gather sets is never taken back, so a monitor gathers once and for all
(`gathered_for_good`): starting over, merging and everything else leave the flag alone.
-/

namespace SectionMonitor

open Exchange (together)

namespace Monitor

variable {m m' : Monitor} {labels : List String}

/-! ## Sections of agreed labels -/

theorem InStep.sectionOf_of_mem (h : m.InStep) {s : Section} (hs : s ∈ m.sections) :
    m.sectionOf s.label = s := by
  obtain ⟨k, hk⟩ := List.getElem?_of_mem hs
  exact h.sectionOf_section hk

/-- The sections are what is known of the labels, in the order of registration. -/
theorem InStep.sections_eq_map (h : m.InStep) :
    m.sections = m.registry.labels.map m.sectionOf := by
  have hsame : ∀ s ∈ m.sections, (m.sectionOf ∘ Section.label) s = id s :=
    fun s hs ↦ h.sectionOf_of_mem hs
  rw [h.labels_eq, List.map_map, List.map_congr_left hsame, List.map_id]

/-- The labels that a monitor lacks. -/
def missing (m : Monitor) (labels : List String) : List String :=
  labels.filter fun label ↦ label ∉ m.registry.labels

theorem mem_missing {label : String} :
    label ∈ m.missing labels ↔ label ∈ labels ∧ label ∉ m.registry.labels := by
  simp [missing]

theorem InStep.labels_registerAll (h : m.InStep) (hnodup : labels.Nodup) :
    (m.registerAll labels).1.registry.labels = m.registry.labels ++ m.missing labels := by
  have hdistinct : (m.missing labels).eraseDups = m.missing labels := by
    rw [← unionLabels_eq_eraseDups]
    exact unionLabels_of_nodup (hnodup.filter _)
  rw [h.extends_registerAll labels, unionLabels_append, unionLabels_of_nodup h.nodup]
  exact congrArg _ hdistinct

/-- **Agreed labels are appended.** No section that was there before is touched. -/
theorem InStep.sections_registerAll (h : m.InStep) (hnodup : labels.Nodup) :
    (m.registerAll labels).1.sections
      = m.sections ++ (m.missing labels).map fun label ↦
          { label := label, source := m.newSource } := by
  have hknown (label : String) : (m.registerAll labels).1.sectionOf label = m.sectionOf label :=
    sectionOf_registerAll h labels label
  have hnew : ∀ label ∈ m.missing labels,
      m.sectionOf label = { label := label, source := m.newSource } := fun label hlabel ↦
    h.sectionOf_of_new (h.indexed.lookup_eq_none_iff.mpr (mem_missing.mp hlabel).2)
  rw [(h.registerAll labels).sections_eq_map, h.labels_registerAll hnodup, List.map_append,
    List.map_congr_left fun label _ ↦ hknown label, ← h.sections_eq_map,
    List.map_congr_left fun label _ ↦ hknown label, List.map_congr_left hnew]

/-- A label that stands for a section goes on standing for it if only sections follow. -/
theorem InStep.find?_of_prefix (h : m.InStep) (h' : m'.InStep)
    (hsections : m.sections <+: m'.sections) {label : String} {i : Index} {s : Section}
    (hfind : m.find? label = some (i, s)) : m'.find? label = some (i, s) := by
  rw [find?, Option.map_eq_some_iff] at hfind
  obtain ⟨j, hlookup, heq⟩ := hfind
  obtain ⟨k, t, rfl, ht, rfl⟩ := h.exists_section_of_lookup hlookup
  rw [sectionAt_of_section ht] at heq
  have ht' : m'.sections[k]? = some t := by
    obtain ⟨rest, hrest⟩ := hsections
    rw [← hrest, List.getElem?_append_left (List.getElem?_eq_some_iff.mp ht).1, ht]
  rw [find?, h'.lookup_of_section ht', Option.map_some, sectionAt_of_section ht', heq]

/-! ## Once and for all -/

theorem Edit.gathered (e : Edit m m') (h : m.gathered = true) : m'.gathered = true := by
  cases e with
  | register hnew => rw [gathered_register, h]
  | bind hs hbound => exact h
  | openInterval here hs hidle hfree => exact h
  | closeInterval here work hs hrunning => exact h
  | clear hs hidle => exact h
  | restart now hidle => exact h
  | absorb shares => exact h
  | sealRoot now hopen hidle => exact gathered_sealed m now
  | finalize hsealed => exact h

/-- **Gathered once and for all.** Whatever is asked of a monitor that has gathered, it refuses to
gather again, and takes no step with the other processes. -/
theorem gathered_for_good (h : m.InStep) (hgathered : m.gathered = true) (ops : List Operation)
    (now : Duration) (rank size : ℕ) :
    (m.run ops).gather now rank size = .done (.refusal .alreadyGathered (m.run ops) []) := by
  have hflag : (m.run ops).gathered = true :=
    (run_edits h ops).keep (fun _ _ step ↦ step.gathered) hgathered
  rw [gather, if_pos hflag]

/-- A gather that is not refused leaves the flag, however it was answered. -/
theorem gathered_of_gather {now : Duration} {t : Transport} {summary : Option Summary}
    (hok : ((m.gather now t.rank t.size).answeredBy t 0).result = .ok summary) :
    (m.after (.gather now t)).gathered = true := by
  cases hopen : m.gathered with
  | true =>
    rw [gather, if_pos hopen] at hok
    cases hok
  | false =>
    cases hidle : m.running? with
    | some s =>
      rw [gather, hopen, hidle] at hok
      cases hok
    | none =>
      obtain ⟨labels, hm⟩ := exists_after_gather_eq hopen hidle now t
      rw [hm, gathered_record, gathered_registerAll, gathered_sealed]

end Monitor

/-! ## What becomes of a process -/

/-- A monitor in which all that a gather may change is as it is in the monitor of the process. -/
def Process.setAside (p : Process) (m' : Monitor) : Monitor :=
  { m' with
    registry := p.monitor.registry
    rootSection := p.monitor.rootSection
    sections := p.monitor.sections
    trace := p.monitor.trace
    gathered := p.monitor.gathered }

/-- What a gather makes of a process if some labels are agreed on: nothing is changed but the root
section and the labels. -/
structure Process.Leaves (p : Process) (labels : List String) (m' : Monitor) : Prop where
  /-- Every label keeps its handle and its section, with all that was measured of it. -/
  kept : ∀ label i s, p.monitor.find? label = some (i, s) →
    m'.find? label = some (i, s) ∧ s.phase = .idle
  labels_eq : m'.registry.labels = p.monitor.registry.labels ++ p.monitor.missing labels
  /-- Missing labels come last, with sections that nobody has bound or used. -/
  sections_eq : m'.sections = p.monitor.sections ++ (p.monitor.missing labels).map fun label ↦
    { label := label
      properties := {}
      binding := .implicit
      source := p.monitor.newSource
      totals := {}
      phase := .idle }
  /-- The root section has ended. Its last interval, if one was open, is added to its time. -/
  root_eq : m'.rootSection
    = { p.monitor.rootSection with totals := m'.rootSection.totals, phase := .idle }
  root_elapsed_idle : p.monitor.rootSection.phase = .idle →
    m'.rootSection.totals.elapsed = p.monitor.rootSection.totals.elapsed
  root_elapsed_running : ∀ since snapshots,
    p.monitor.rootSection.phase = .running since snapshots →
    m'.rootSection.totals.elapsed
      = p.monitor.rootSection.totals.elapsed.saturatingAdd (p.now.saturatingSub since)
  gathered : m'.gathered = true
  /-- Nothing else is changed, except that the timeline is complete. -/
  rest : p.setAside m' = p.monitor

namespace Process

variable {p : Process}

theorem inStep_joined (h : p.Ready) (labels : List String) : (p.joined labels).InStep :=
  (h.reachable.inStep.sealed p.now).registerAll labels

/-- Ending the root section and registering labels changes what `Leaves` says. -/
theorem Ready.leaves (h : p.Ready) {labels : List String} (hnodup : labels.Nodup) :
    p.Leaves labels ((p.joined labels).record .finalize) := by
  have hin : p.monitor.InStep := h.reachable.inStep
  have hsealed : (p.monitor.sealed p.now).InStep := hin.sealed p.now
  have hmissing : (p.monitor.sealed p.now).missing labels = p.monitor.missing labels := by
    rw [Monitor.missing, Monitor.missing, Monitor.registry_sealed]
  have hsource : (p.monitor.sealed p.now).newSource = p.monitor.newSource := by
    rw [Monitor.newSource, Monitor.newSource, Monitor.countersActive, Monitor.countersActive,
      Monitor.settings_sealed, Monitor.events_sealed]
  have hsections := hsealed.sections_registerAll hnodup
  rw [Monitor.sections_sealed, hmissing, hsource] at hsections
  have hlabels := hsealed.labels_registerAll hnodup
  rw [Monitor.registry_sealed, hmissing] at hlabels
  have hroot : (p.joined labels).rootSection = (p.monitor.sealed p.now).rootSection :=
    Monitor.rootSection_registerAll _ labels
  refine
    { kept := fun label i s hfind ↦ ⟨?_, ?_⟩
      labels_eq := hlabels
      sections_eq := hsections
      root_eq := ?_
      root_elapsed_idle := fun hphase ↦ ?_
      root_elapsed_running := fun since snapshots hphase ↦ ?_
      gathered := ?_
      rest := ?_ }
  · exact hin.find?_of_prefix (inStep_joined h labels) ⟨_, hsections.symm⟩ hfind
  · rw [Monitor.find?, Option.map_eq_some_iff] at hfind
    obtain ⟨j, hlookup, heq⟩ := hfind
    obtain ⟨k, t, rfl, ht, -⟩ := hin.exists_section_of_lookup hlookup
    rw [Monitor.sectionAt_of_section ht] at heq
    obtain rfl : t = s := congrArg Prod.snd heq
    exact Monitor.isRunning_eq_false_iff.mp (h.idle t (List.mem_of_getElem? ht))
  · change (p.joined labels).rootSection
      = { p.monitor.rootSection with
          totals := (p.joined labels).rootSection.totals, phase := .idle }
    rw [hroot, Monitor.sealed, Monitor.stopRoot]
    split
    · next hphase =>
      change p.monitor.rootSection = { p.monitor.rootSection with phase := .idle }
      rw [← hphase]
    · rfl
  · change (p.joined labels).rootSection.totals.elapsed = _
    rw [hroot, Monitor.elapsed_sealed, Monitor.lifetime, hphase]
  · change (p.joined labels).rootSection.totals.elapsed = _
    rw [hroot, Monitor.elapsed_sealed, Monitor.lifetime, hphase]
  · exact (Monitor.gathered_registerAll _ labels).trans (Monitor.gathered_sealed _ _)
  · have hrest := Monitor.registerAll_eq_of_register (f := p.setAside) (fun m label ↦ ?_)
      (p.monitor.sealed p.now) labels
    · refine hrest.trans ?_
      rw [setAside, Monitor.sealed, Monitor.stopRoot]
      split <;> rfl
    · rw [setAside, Monitor.register]
      split <;> rfl

end Process

/-! ## Jobs -/

namespace Job

variable (job : Job)

/-- **What every process gets and becomes.** -/
theorem exists_outcome_of_rank (hready : ∀ p ∈ job.processes, p.Ready)
    (hfits : ∀ p ∈ job.processes, ∀ label ∈ p.monitor.registry.labels, LabelBuffer.Fits label) :
    ∃ outcomes, together job.exchanges = some outcomes ∧ outcomes.length = job.size ∧
      ∀ (rank : ℕ) (p : Process), job.processes[rank]? = some p →
        ∃ outcome : Outcome (Option Summary), outcomes[rank]? = some outcome ∧
        (∃ summary, outcome.result = .ok summary) ∧
        outcome.monitor = (p.joined job.labels).record .finalize := by
  obtain ⟨labels, events, outcomes, htogether, hresults, hmonitors, hlabels⟩ :=
    job.exists_joined hready
  obtain rfl := hlabels hfits
  have hlength : outcomes.length = job.size := by
    simpa [size] using congrArg List.length hmonitors
  refine ⟨outcomes, htogether, hlength, fun rank p hp ↦ ?_⟩
  have hm := congrArg (fun monitors ↦ monitors[rank]?) hmonitors
  simp only [List.getElem?_map, hp, Option.map_some] at hm
  obtain ⟨outcome, houtcome, hm⟩ := Option.map_eq_some_iff.mp hm
  refine ⟨outcome, houtcome, ?_, hm⟩
  have hmem : outcome.result ∈ outcomes.map Outcome.result :=
    List.mem_map_of_mem (List.mem_of_getElem? houtcome)
  rw [hresults, List.mem_cons, List.mem_replicate] at hmem
  obtain hfirst | ⟨-, hother⟩ := hmem
  · exact ⟨_, hfirst⟩
  · exact ⟨_, hother⟩

/-- **A gather changes the root section and the labels, and nothing else.** A job whose processes
are ready runs through, whether it has one process or several. Every process gets a result and is
left as it was, but for its root section, which has ended, and for the labels that it lacked: these
follow in the order that all processes agree on. Afterwards all of them have the same labels. None
of them gathers again, whatever it is asked for.

The same holds of a single monitor with any other processes: in a run at most one gather is not
refused. -/
theorem gather_changes_root_and_labels (hready : ∀ p ∈ job.processes, p.Ready)
    (hfits : ∀ p ∈ job.processes, ∀ label ∈ p.monitor.registry.labels, LabelBuffer.Fits label) :
    (∃ outcomes, together job.exchanges = some outcomes ∧ outcomes.length = job.size ∧
      ∀ (rank : ℕ) (p : Process), job.processes[rank]? = some p →
        ∃ outcome : Outcome (Option Summary), outcomes[rank]? = some outcome ∧
        (∃ summary, outcome.result = .ok summary) ∧
        p.Leaves job.labels outcome.monitor ∧
        (∀ label, label ∈ outcome.monitor.registry.labels
          ↔ ∃ q ∈ job.processes, label ∈ q.monitor.registry.labels) ∧
        ∀ ops now rank' size', (outcome.monitor.run ops).gather now rank' size'
          = .done (.refusal .alreadyGathered (outcome.monitor.run ops) [])) ∧
    ∀ (m : Monitor) before now t summary between now' rank size, m.Reachable →
      (((m.run before).gather now t.rank t.size).answeredBy t 0).result = .ok summary →
      (m.run (before ++ .gather now t :: between)).gather now' rank size
        = .done (.refusal .alreadyGathered (m.run (before ++ .gather now t :: between)) []) := by
  refine ⟨?_, fun m before now t summary between now' rank size hm hok ↦ ?_⟩
  · obtain ⟨outcomes, htogether, hlength, houtcomes⟩ := job.exists_outcome_of_rank hready hfits
    refine ⟨outcomes, htogether, hlength, fun rank p hp ↦ ?_⟩
    obtain ⟨outcome, houtcome, hresult, hm⟩ := houtcomes rank p hp
    have hmem : p ∈ job.processes := List.mem_of_getElem? hp
    have hleaves : p.Leaves job.labels outcome.monitor := by
      rw [hm]
      exact (hready p hmem).leaves (Monitor.nodup_unionLabels _)
    have hin : outcome.monitor.InStep := by
      have hjoined := Process.inStep_joined (hready p hmem) job.labels
      rw [hm]
      exact ⟨hjoined.indexed, hjoined.labels_eq, hjoined.nodup⟩
    refine ⟨outcome, houtcome, hresult, hleaves, fun label ↦ ?_,
      Monitor.gathered_for_good hin hleaves.gathered⟩
    have hunion : label ∈ job.labels ↔ ∃ q ∈ job.processes, label ∈ q.monitor.registry.labels := by
      rw [labels, Monitor.mem_unionLabels, List.mem_flatMap]
    rw [hleaves.labels_eq, List.mem_append, Monitor.mem_missing, ← hunion]
    constructor
    · rintro (hown | ⟨hlabel, -⟩)
      · exact hunion.mpr ⟨p, hmem, hown⟩
      · exact hlabel
    · intro hlabel
      by_cases hown : label ∈ p.monitor.registry.labels
      · exact .inl hown
      · exact .inr ⟨hlabel, hown⟩
  · rw [Monitor.run_append_cons]
    exact Monitor.gathered_for_good ((hm.run before).after _).inStep
      (Monitor.gathered_of_gather hok) between now' rank size

/-- The process of rank one keeps its sections under their handles and gets the label that it
lacked, which is the first one of rank zero, as its last. A monitor that has gathered alone does not
gather again after all its sections have been forgotten. -/
theorem pair_changes_root_and_labels :
    (∀ p ∈ pair.processes, p.Ready) ∧
      (∀ p ∈ pair.processes, ∀ label ∈ p.monitor.registry.labels, LabelBuffer.Fits label) ∧
      (∃ outcomes p, together pair.exchanges = some outcomes ∧ pair.processes[1]? = some p ∧
        ∃ outcome : Outcome (Option Summary), outcomes[1]? = some outcome ∧
          p.Leaves pair.labels outcome.monitor ∧
          outcome.monitor.registry.labels = ["solve", "exchange", "assemble"]) ∧
      let m := Monitor.build {} none false .zero
      let again := m.run ([] ++ .gather ⟨5⟩ .alone :: [.call (.resetAll ⟨7⟩)])
      m.Reachable ∧ again.gather ⟨9⟩ 0 1 = .done (.refusal .alreadyGathered again []) := by
  have hfits : ∀ p ∈ pair.processes, ∀ label ∈ p.monitor.registry.labels,
      LabelBuffer.Fits label := by
    unfold LabelBuffer.Fits
    decide +kernel
  obtain ⟨⟨outcomes, htogether, -, houtcomes⟩, honce⟩ :=
    pair.gather_changes_root_and_labels ready_pair hfits
  obtain ⟨outcome, houtcome, -, hleaves, -, -⟩ := houtcomes 1 _ rfl
  have hbuilt : (Monitor.build {} none false .zero).Reachable := .build ..
  refine ⟨ready_pair, hfits, ⟨outcomes, _, htogether, rfl, outcome, houtcome, hleaves, ?_⟩, hbuilt,
    honce _ [] ⟨5⟩ .alone _ [.call (.resetAll ⟨7⟩)] ⟨9⟩ 0 1 hbuilt rfl⟩
  rw [hleaves.labels_eq]
  decide +kernel

end Job

end SectionMonitor
