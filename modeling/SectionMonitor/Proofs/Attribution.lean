import SectionMonitor.Proofs.JobSummary
import SectionMonitor.Proofs.Ledger

/-!
# Whose event a count is

The processes of a job agree on the hardware events of rank zero, but each of them hands over its
own counts in the order of its own events. So the counts of a process are credited to the events of
rank zero place by place. That is right as long as the shorter one of both lists is the beginning of
the longer one (`Aligned`): an event that is not measured then counts zero. In all other cases there
are two events in the same place, and what was counted of the one is reported of the other.

`Job.counters_credited_by_name_iff` states both, for any job and any lists of distinct events.
-/

namespace SectionMonitor

open Exchange (together)

/-! ## Counts by name and by place -/

/-- One of the lists of events is the beginning of the other. -/
def Aligned (own agreed : List String) : Prop := own <+: agreed ∨ agreed <+: own

instance (own agreed : List String) : Decidable (Aligned own agreed) :=
  inferInstanceAs (Decidable (own <+: agreed ∨ agreed <+: own))

/-- The count of an event by its name, when the events of the reading are given. What is not
measured counts zero. -/
def Reading.named (own : List String) (reading : Reading) (event : String) : Count :=
  (own.idxOf? event).elim 0 reading.count

section Lists

variable {own agreed : List String} {reading : Reading} {k : ℕ} {event : String}

/-- Aligned lists have the same events wherever both have one. -/
theorem aligned_iff_getElem? :
    Aligned own agreed
      ↔ ∀ (k : ℕ) (a b : String), own[k]? = some a → agreed[k]? = some b → a = b := by
  constructor
  · rintro (hown | hagreed) k a b ha hb
    · obtain ⟨hlt, rfl⟩ := List.getElem?_eq_some_iff.mp ha
      exact Option.some.inj ((List.prefix_iff_getElem?.mp hown k hlt).symm.trans hb)
    · obtain ⟨hlt, rfl⟩ := List.getElem?_eq_some_iff.mp hb
      exact Option.some.inj (ha.symm.trans (List.prefix_iff_getElem?.mp hagreed k hlt))
  · intro hsame
    rcases Nat.le_total own.length agreed.length with hle | hle
    · refine .inl (List.prefix_iff_getElem?.mpr fun k hk ↦ ?_)
      have hk' : k < agreed.length := Nat.lt_of_lt_of_le hk hle
      rw [hsame k _ _ (List.getElem?_eq_getElem hk) (List.getElem?_eq_getElem hk')]
      exact List.getElem?_eq_getElem hk'
    · refine .inr (List.prefix_iff_getElem?.mpr fun k hk ↦ ?_)
      have hk' : k < own.length := Nat.lt_of_lt_of_le hk hle
      rw [← hsame k _ _ (List.getElem?_eq_getElem hk') (List.getElem?_eq_getElem hk)]
      exact List.getElem?_eq_getElem hk'

theorem Reading.named_of_getElem? (hown : own.Nodup) (hk : own[k]? = some event) :
    reading.named own event = reading.count k := by
  rw [named, idxOf?_of_getElem? hown hk, Option.elim_some]

theorem Reading.named_of_notMem (h : event ∉ own) : reading.named own event = 0 := by
  rw [named, List.idxOf?_eq_none_iff.mpr h, Option.elim_none]

/-- **Counts of aligned events are in the right place.** -/
theorem Aligned.count_eq_named (h : Aligned own agreed) (hown : own.Nodup) (hagreed : agreed.Nodup)
    (hlength : reading.length ≤ own.length) (hk : agreed[k]? = some event) :
    reading.count k = reading.named own event := by
  have hsame := aligned_iff_getElem?.mp h
  cases hat : own[k]? with
  | some a =>
    obtain rfl := hsame k a event hat hk
    exact (Reading.named_of_getElem? hown hat).symm
  | none =>
    have hbeyond : own.length ≤ k := List.getElem?_eq_none_iff.mp hat
    -- The event is not measured: it would stand earlier in both lists.
    have hmem : event ∉ own := by
      intro hmem
      obtain ⟨j, hj⟩ := List.getElem?_of_mem hmem
      have hown_lt : j < own.length := (List.getElem?_eq_some_iff.mp hj).1
      have hagreed_lt : k < agreed.length := (List.getElem?_eq_some_iff.mp hk).1
      have hj' : agreed[j]? = some agreed[j] := List.getElem?_eq_getElem (by omega)
      have heq : agreed[j]? = agreed[k]? := by rw [hk, hj', hsame j event _ hj hj']
      have hjk : j = k := (List.getElem?_inj (by omega) hagreed).mp heq
      omega
    rw [Reading.named_of_notMem hmem, Reading.count, List.getD_eq_getElem?_getD,
      List.getElem?_eq_none (by omega), Option.getD_none]

/-- The reading that counts one event in one place. -/
def Reading.single (k : ℕ) : Reading := List.replicate k 0 ++ [1]

theorem Reading.count_single (j : ℕ) : (single k).count j = if j = k then 1 else 0 := by
  rw [single, count, List.getD_eq_getElem?_getD, List.getElem?_append, List.length_replicate]
  by_cases hlt : j < k
  · simp [hlt, Nat.ne_of_lt hlt]
  · by_cases heq : j = k
    · simp [heq]
    · simp [hlt, heq, show j - k ≠ 0 by omega]

/-- **Counts of other lists can be in the wrong place.** -/
theorem exists_count_ne_named (hown : own.Nodup) (h : ¬Aligned own agreed) :
    ∃ (reading : Reading) (k : ℕ) (event : String), reading.length ≤ own.length ∧
      agreed[k]? = some event ∧ reading.count k ≠ reading.named own event := by
  rw [aligned_iff_getElem?] at h
  push Not at h
  obtain ⟨k, a, event, ha, hevent, hne⟩ := h
  obtain ⟨hlt, -⟩ := List.getElem?_eq_some_iff.mp ha
  have hlength : (Reading.single k).length ≤ own.length := by
    rw [Reading.single, List.length_append, List.length_replicate]
    exact hlt
  refine ⟨.single k, k, event, hlength, hevent, ?_⟩
  rw [Reading.count_single, if_pos rfl]
  by_cases hmem : event ∈ own
  · obtain ⟨j, hj⟩ := List.getElem?_of_mem hmem
    have hjk : j ≠ k := by
      rintro rfl
      exact hne (Option.some.inj (ha.symm.trans hj))
    rw [Reading.named_of_getElem? hown hj, Reading.count_single, if_neg hjk]
    decide
  · rw [Reading.named_of_notMem hmem]
    decide

end Lists

theorem Reading.length_total_le {readings : List Reading} {n : ℕ}
    (h : ∀ r ∈ readings, r.length ≤ n) : (total readings).length ≤ n := by
  induction readings using List.reverseRecOn with
  | nil => exact Nat.zero_le _
  | append_singleton readings r ih =>
    have hinit := ih fun r hr ↦ h r (List.mem_append_left _ hr)
    rw [total, List.foldl_append, List.foldl_cons, List.foldl_nil, length_accumulate]
    exact max_le hinit (h r (by simp))

/-! ## What a process counted -/

namespace Monitor

variable {m : Monitor}

/-- What was counted in the section with a label, in the order of the own events. -/
def localReading (m : Monitor) (label : String) : Reading :=
  ((m.find? label).map fun found ↦ found.2.totals.counters).getD []

/-- What was counted of an event, by its name, in the section with a label. -/
def localCount (m : Monitor) (label event : String) : Count :=
  (m.localReading label).named m.events event

theorem counters_sectionOf (h : m.InStep) (label : String) :
    (m.sectionOf label).totals.counters = m.localReading label := by
  obtain ⟨hfind, hnew⟩ | ⟨i, hfind⟩ := h.find?_cases label
  · rw [localReading, hfind, hnew]
    rfl
  · rw [localReading, hfind]
    rfl

/-- No section has more counts than there are events. -/
def Orderly (m : Monitor) : Prop := ∀ s ∈ m.sections, s.totals.counters.length ≤ m.events.length

theorem Orderly.length_localReading_le (h : m.Orderly) (hin : m.InStep) (label : String) :
    (m.localReading label).length ≤ m.events.length := by
  rw [← counters_sectionOf hin]
  obtain hnew | hmem := m.sectionOf_cases label
  · rw [hnew]
    exact Nat.zero_le _
  · exact h _ hmem

/-- The counters advance by at most so many counts. -/
def Operation.ListsAtMost (events : ℕ) : Operation → Prop
  | .call (.stop here _ _) => ∀ thread reading, (here.advance thread reading).length ≤ events
  | _ => True

theorem length_counted_le {iv : Interval} {n : ℕ}
    (h : ∀ thread reading, (iv.closed.advance thread reading).length ≤ n) :
    (m.counted iv).length ≤ n := by
  rw [counted, countSince]
  split
  · refine Reading.length_total_le fun r hr ↦ ?_
    obtain ⟨snapshot, -, rfl⟩ := List.mem_map.mp hr
    exact h snapshot.thread snapshot.reading
  · exact Nat.zero_le n

/-- A run in which the counters list their advances in the order of the own events is orderly. -/
theorem Begins.orderly_run (h : m.Begins) {ops : List Operation} (hsolo : ∀ op ∈ ops, op.Solo)
    (hlists : ∀ op ∈ ops, op.ListsAtMost m.events.length) : (m.run ops).Orderly := by
  intro s hs
  have hevents : (m.run ops).events = m.events :=
    (run_edits h.reachable.inStep ops).setUpAs.events_eq
  obtain ⟨⟨intervals, pending, hrecent, htotals⟩, -⟩ := h.exists_totals_eq hsolo hs
  rw [htotals, counters_totalsOf, hevents]
  refine Reading.length_total_le fun r hr ↦ ?_
  obtain ⟨iv, hiv, rfl⟩ := List.mem_map.mp hr
  have hstop := stopped_mem_transcript hiv s.label pending
  rw [← hrecent] at hstop
  exact length_counted_le (hlists _ (stop_mem_of_mem_deeds (mem_of_mem_recent hstop)))

end Monitor

/-! ## What rank zero reports -/

namespace Job

variable (job : Job) {agreed own : List String}

/-- A job of several processes that are ready to gather and have their counts in order, and the
events of its rank zero. -/
structure Counts (agreed : List String) : Prop where
  others_ne_nil : job.others ≠ []
  ready : ∀ p ∈ job.processes, p.Ready
  fits : ∀ p ∈ job.processes, ∀ label ∈ p.monitor.registry.labels, LabelBuffer.Fits label
  orderly : ∀ p ∈ job.processes, p.monitor.Orderly
  events_eq : job.root.monitor.events = agreed

/-- The job gathers the summary on rank zero, and nothing on the others. -/
def Gathers (summary : Summary) : Prop :=
  ∃ outcomes, together job.exchanges = some outcomes ∧
    outcomes.map Outcome.result
      = .ok (some summary) :: List.replicate job.others.length (.ok none)

variable {job}

theorem Gathers.unique {summary summary' : Summary} (h : job.Gathers summary)
    (h' : job.Gathers summary') : summary = summary' := by
  obtain ⟨outcomes, htogether, hresults⟩ := h
  obtain ⟨outcomes', htogether', hresults'⟩ := h'
  obtain rfl := Option.some.inj (htogether.symm.trans htogether')
  simpa using hresults.symm.trans hresults'

theorem Counts.gathers (h : job.Counts agreed)
    (hfits : ∀ event ∈ agreed, LabelBuffer.Fits event) :
    job.Gathers (job.summary job.labels agreed) := by
  have hevents : job.agreedEvents = agreed := by
    rw [agreedEvents, h.events_eq, LabelBuffer.decode_encode hfits]
  rw [← hevents]
  exact job.exists_summary_of_others h.others_ne_nil h.ready h.fits

/-- The counts of every process are reported in the order in which the process lists them. -/
theorem Counts.counters_eq (h : job.Counts agreed) {s : SectionSummary}
    (hs : s ∈ (job.summary job.labels agreed).sections) :
    s.counters = job.processes.map fun p ↦
      (List.range agreed.length).map (p.monitor.localReading s.label).count := by
  obtain ⟨label, -, rfl⟩ := List.mem_map.mp hs
  have hlabel : (job.sectionSummary agreed.length label).label = label :=
    Monitor.label_sectionOf _ _
  have hcounters : (job.sectionSummary agreed.length label).counters
      = job.processes.map fun p ↦
          (List.range agreed.length).map (p.monitor.sectionOf label).totals.counters.count :=
    List.map_map
  rw [hlabel, hcounters]
  refine List.map_congr_left fun p hp ↦ ?_
  rw [Monitor.counters_sectionOf (h.ready p hp).reachable.inStep]

/-- Counts by place are counts by name if every place has its name. -/
theorem map_count_eq_iff (reading : Reading) (f : String → Count) :
    (List.range agreed.length).map reading.count = agreed.map f
      ↔ ∀ (k : ℕ) (event : String), agreed[k]? = some event → reading.count k = f event := by
  rw [List.ext_getElem_iff]
  simp only [List.length_map, List.length_range, List.getElem_map, List.getElem_range, true_and]
  constructor
  · intro h k event hk
    obtain ⟨hlt, rfl⟩ := List.getElem?_eq_some_iff.mp hk
    exact h k hlt hlt
  · intro h k hlt _
    exact h k agreed[k] (List.getElem?_eq_getElem hlt)

end Job

/-! ## Two processes with different events -/

/-- A process that has the events of rank zero and measured nothing. -/
def observing (agreed : List String) : Process where
  monitor := .build {} (some agreed) false .zero
  now := .zero

/-- What a process does that measures one interval, in which the counters advanced. -/
def kernelOnce (reading : Reading) : List Monitor.Operation :=
  [.call (.start (.plain .zero) "kernel"),
    .call (.stop { Surroundings.plain .zero with advance := fun _ _ ↦ reading } "kernel" {})]

/-- A process with events of its own. -/
def counting (own : List String) (reading : Reading) : Process where
  monitor := (Monitor.build {} (some own) false .zero).run (kernelOnce reading)
  now := .zero

/-- The job of both. -/
def Job.mixed (agreed own : List String) (reading : Reading) : Job where
  root := observing agreed
  others := [counting own reading]

theorem orderly_counting {own : List String} {reading : Reading}
    (hlength : reading.length ≤ own.length) : (counting own reading).monitor.Orderly := by
  have hbegins : (Monitor.build {} (some own) false .zero).Begins := .build ..
  refine hbegins.orderly_run (by simp [kernelOnce, Monitor.Operation.Solo]) fun op hop ↦ ?_
  rcases List.mem_pair.mp hop with rfl | rfl
  · trivial
  · exact fun _ _ ↦ hlength

theorem Job.counts_mixed (agreed own : List String) {reading : Reading}
    (hlength : reading.length ≤ own.length) : (mixed agreed own reading).Counts agreed where
  others_ne_nil := List.cons_ne_nil _ _
  ready p hp := by
    rcases List.mem_pair.mp hp with rfl | rfl
    · exact ⟨.build {} (some agreed) false .zero, rfl, fun s hs ↦ absurd hs List.not_mem_nil⟩
    · refine ⟨(Monitor.Reachable.build {} (some own) false .zero).run _, rfl, fun s hs ↦ ?_⟩
      obtain rfl := List.mem_singleton.mp hs
      rfl
  fits p hp label hlabel := by
    rcases List.mem_pair.mp hp with rfl | rfl
    · exact absurd hlabel List.not_mem_nil
    · obtain rfl := List.mem_singleton.mp hlabel
      unfold LabelBuffer.Fits
      decide +kernel
  orderly p hp := by
    rcases List.mem_pair.mp hp with rfl | rfl
    · exact fun s hs ↦ absurd hs List.not_mem_nil
    · exact orderly_counting hlength
  events_eq := rfl

theorem localReading_counting {own : List String} (hown : own ≠ []) (reading : Reading) :
    (counting own reading).monitor.localReading "kernel" = reading := by
  cases own with
  | nil => exact absurd rfl hown
  | cons event rest => rfl

namespace Job

variable {agreed own : List String}

theorem exists_label_eq_kernel (agreed own : List String) (reading : Reading) :
    ∃ s ∈ ((mixed agreed own reading).summary (mixed agreed own reading).labels agreed).sections,
      s.label = "kernel" := by
  have hmem : "kernel" ∈ (mixed agreed own reading).labels := by
    refine Monitor.mem_unionLabels.mpr (List.mem_flatMap.mpr ⟨counting own reading, ?_, ?_⟩)
    · exact List.mem_cons_of_mem _ (List.mem_singleton_self _)
    · exact List.mem_singleton_self "kernel"
  exact ⟨_, List.mem_map_of_mem hmem, Monitor.label_sectionOf _ _⟩

/-- **Counts are credited by place, which is right for aligned events only.** A job reports the
counts of every process in the order in which the process lists them, under the names of the events
of rank zero. A process with certain events can rely on being credited with its own count of every
event, and with zero for those that it does not measure, exactly if its list of events is aligned
with that of rank zero. -/
theorem counters_credited_by_name_iff (hagreed : agreed.Nodup) (hown : own.Nodup)
    (hfits : ∀ event ∈ agreed, LabelBuffer.Fits event) :
    (∀ job : Job, job.Counts agreed → ∃ summary, job.Gathers summary ∧ summary.events = agreed ∧
        ∀ s ∈ summary.sections, s.counters = job.processes.map fun p ↦
          (List.range agreed.length).map (p.monitor.localReading s.label).count) ∧
      ((∀ (job : Job) (summary : Summary) (rank : ℕ) (p : Process),
          job.Counts agreed → job.Gathers summary → job.processes[rank]? = some p →
          p.monitor.events = own → ∀ s ∈ summary.sections,
            s.counters[rank]? = some (agreed.map (p.monitor.localCount s.label)))
        ↔ Aligned own agreed) := by
  refine ⟨fun job hjob ↦ ⟨_, hjob.gathers hfits, rfl, fun s hs ↦ hjob.counters_eq hs⟩,
    fun hall ↦ ?_, fun haligned job summary rank p hjob hgathers hp hevents s hs ↦ ?_⟩
  · by_contra hmisaligned
    obtain ⟨reading, k, event, hlength, hk, hne⟩ := exists_count_ne_named hown hmisaligned
    have hjob := counts_mixed agreed own hlength
    obtain ⟨s, hs, hlabel⟩ := exists_label_eq_kernel agreed own reading
    have hname := hall _ _ 1 _ hjob (hjob.gathers hfits) rfl rfl s hs
    have hne_nil : own ≠ [] := by
      rintro rfl
      exact hmisaligned (.inl List.nil_prefix)
    rw [hjob.counters_eq hs, hlabel] at hname
    have hplace : (List.range agreed.length).map
          ((counting own reading).monitor.localReading "kernel").count
        = agreed.map ((counting own reading).monitor.localCount "kernel") := Option.some.inj hname
    rw [localReading_counting hne_nil, map_count_eq_iff] at hplace
    refine hne ((hplace k event hk).trans ?_)
    rw [Monitor.localCount, localReading_counting hne_nil]
    rfl
  · obtain rfl := hgathers.unique (hjob.gathers hfits)
    have hmem : p ∈ job.processes := List.mem_of_getElem? hp
    have hlength := (hjob.orderly p hmem).length_localReading_le
      (hjob.ready p hmem).reachable.inStep s.label
    rw [hevents] at hlength
    rw [hjob.counters_eq hs, List.getElem?_map, hp, Option.map_some, Option.some.injEq,
      map_count_eq_iff]
    intro k event hk
    rw [haligned.count_eq_named hown hagreed hlength hk, Monitor.localCount, hevents]

/-- Rank zero measures loads and misses, rank one stores and loads. The seven stores of rank one are
reported as loads, and its three loads as misses. -/
theorem loads_credited_to_misses :
    ["loads", "misses"].Nodup ∧ ["stores", "loads"].Nodup ∧
      (∀ event ∈ ["loads", "misses"], LabelBuffer.Fits event) ∧
      ¬Aligned ["stores", "loads"] ["loads", "misses"] ∧
      (mixed ["loads", "misses"] ["stores", "loads"] [7, 3]).Counts ["loads", "misses"] ∧
      ∃ summary, (mixed ["loads", "misses"] ["stores", "loads"] [7, 3]).Gathers summary ∧
        summary.events = ["loads", "misses"] ∧
        ∀ s ∈ summary.sections, s.label = "kernel" → s.counters = [[0, 0], [7, 3]] ∧
          ["loads", "misses"].map
            ((counting ["stores", "loads"] [7, 3]).monitor.localCount s.label) = [3, 0] := by
  have hfits : ∀ event ∈ ["loads", "misses"], LabelBuffer.Fits event := by
    unfold LabelBuffer.Fits
    decide +kernel
  have hjob : (mixed ["loads", "misses"] ["stores", "loads"] [7, 3]).Counts ["loads", "misses"] :=
    counts_mixed _ _ (Nat.le_refl 2)
  have hagreed : ["loads", "misses"].Nodup := by decide
  have hown : ["stores", "loads"].Nodup := by decide
  obtain ⟨summary, hgathers, hevents, hcounters⟩ :=
    (counters_credited_by_name_iff hagreed hown hfits).1 _ hjob
  refine ⟨hagreed, hown, hfits, by decide +kernel, hjob, summary, hgathers, hevents, ?_⟩
  intro s hs hlabel
  rw [hcounters s hs, hlabel]
  exact ⟨by decide +kernel, by decide +kernel⟩

end Job

end SectionMonitor
