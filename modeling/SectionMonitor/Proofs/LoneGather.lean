import Mathlib.Data.List.Forall2
import SectionMonitor.Proofs.AgreedProperties
import SectionMonitor.Proofs.FloatIdentities
import SectionMonitor.Proofs.GatherFrame

/-!
# A process that gathers alone

The summary of a process that is alone repeats what the process has measured, bit for bit: its
numbers go through the same means, deviations and maxima as those of a large job, but of a single
number these are the number itself. Its bindings go through the same codes, and a code gives back
the properties that were put into it.
-/

namespace SectionMonitor

/-! ## A section that is heard of once -/

/-- What the summary of a section says if it repeats what one process has measured of it. -/
structure SectionSummary.Repeats (events : List String) (t : SectionSummary) (s : Section) :
    Prop where
  label_eq : t.label = s.label
  properties_eq : t.properties = s.properties
  source_eq : t.source = s.source
  isConsistent : t.isConsistent = true
  statistics_eq : t.statistics? = some
    { meanTime := s.totals.elapsed.seconds
      deviationTime := 0
      meanVolume := s.totals.volume
      deviationVolume := 0 }
  callCounts_eq : t.callCounts = [s.totals.calls]
  communicationTime_eq : t.communicationTime?
    = if s.kind = .communication then some s.totals.elapsed.seconds else none
  /-- Counts beyond the events are cut off, and missing ones are zero. -/
  counters_eq : t.counters
    = [(s.totals.counters.take events.length).rightpad events.length 0]

theorem Reading.map_count_range (reading : Reading) (n : ℕ) :
    (List.range n).map reading.count = (reading.take n).rightpad n 0 := by
  refine List.ext_getElem (by simp) fun event hleft hright ↦ ?_
  rw [List.length_map, List.length_range] at hleft
  rw [List.getElem_map, List.getElem_range, count, List.getD_eq_getElem?_getD]
  by_cases hevent : event < reading.length
  · have htaken : event < (reading.take n).length := by
      rw [List.length_take]
      omega
    simp only [List.rightpad, List.getElem_append_left htaken, List.getElem_take,
      List.getElem?_eq_getElem hevent, Option.getD_some]
  · have hpadded : (reading.take n).length ≤ event := by
      rw [List.length_take]
      omega
    simp only [List.rightpad, List.getElem_append_right hpadded, List.getElem_replicate,
      List.getElem?_eq_none (Nat.not_lt.mp hevent), Option.getD_none]

/-- **A section that is heard of once** is told as it was heard. -/
theorem Section.repeats_summarize (s : Section) (events : List String) :
    SectionSummary.Repeats events (s.summarize events.length [s]) s := by
  have hproperties : (s.summarize events.length [s]).properties = s.properties := by
    have hagreed := Properties.agreed?_codes [s]
    rw [summarize, hagreed, List.findSome?_singleton, named?]
    split <;> rfl
  have hconsistent : (s.summarize events.length [s]).isConsistent = true := Bool.or_true _
  refine
    { label_eq := rfl
      properties_eq := hproperties
      source_eq := rfl
      isConsistent := hconsistent
      statistics_eq := ?_
      callCounts_eq := rfl
      communicationTime_eq := ?_
      counters_eq := ?_ }
  · have hsamples : (s.summarize events.length [s]).samples = [s.sample] := rfl
    rw [SectionSummary.statistics?, hconsistent, hsamples, Statistics.ofSamples]
    simp [mean_singleton, deviation_singleton, sample]
  · rw [SectionSummary.communicationTime?, SectionSummary.kind, hproperties, kind]
    split_ifs with hkind
    · exact congrArg some (largest_singleton (Binary64.isAmount_seconds _))
    · rfl
  · exact congrArg (fun reading ↦ [reading]) (Reading.map_count_range _ _)

/-! ## The gather -/

namespace Monitor

variable {m : Monitor}

/-- **A process that is alone reports what it measured.** Its gather takes no steps and is not
refused. The summary has its sections in the order of registration, and says of each what the
process has measured of it, bit for bit; the total time is that of its root section. -/
theorem Reachable.lone_gather_repeats (h : m.Reachable) (hopen : m.gathered = false)
    (hidle : m.running? = none) (now : Duration) :
    ∃ outcome summary, m.gather now 0 1 = .done outcome ∧ outcome.result = .ok (some summary) ∧
      summary.events = m.events ∧
      summary.sections.map SectionSummary.label = m.registry.labels ∧
      List.Forall₂ (SectionSummary.Repeats m.events) summary.sections m.sections ∧
      summary.totalTime = outcome.monitor.rootSection.totals.elapsed.seconds ∧
      outcome.monitor.sections = m.sections := by
  have hready : Process.Ready ⟨m, now⟩ := ⟨h, hopen, running?_eq_none_iff.mp hidle⟩
  have hsections : (m.registry.labels.map fun label ↦
        (m.sectionOf label).summarize m.events.length [m.sectionOf label])
      = m.sections.map fun s ↦ s.summarize m.events.length [s] := by
    rw [h.inStep.sections_eq_map, List.map_map]
    rfl
  have hgather : m.gather now 0 1 = _ := Process.gather_alone hready 0 (Nat.lt_irrefl 1)
  rw [hsections] at hgather
  refine ⟨_, ⟨[(m.lifetime now).seconds], (m.sealed now).settings, m.events, _⟩, hgather,
    result_conclude .., rfl, ?_, ?_, ?_, ?_⟩
  · rw [h.inStep.labels_eq, List.map_map]
    rfl
  · rw [List.forall₂_map_left_iff, List.forall₂_same]
    exact fun s _ ↦ s.repeats_summarize m.events
  · rw [monitor_conclude]
    change mean [(m.lifetime now).seconds] = (m.sealed now).rootSection.totals.elapsed.seconds
    rw [mean_singleton, elapsed_sealed]
  · rw [monitor_conclude, sections_record, sections_sealed]

/-- A section that computes and one that communicates, one after the other. The counters show the
first of two events only. -/
def exchangeOnce : Monitor :=
  (build {} (some ["loads", "misses"]) false .zero).run
    [.call (.start (.plain ⟨5⟩) "solve"),
      .call (.stop { Surroundings.plain ⟨12⟩ with advance := fun _ _ ↦ [4] } "solve" {}),
      .call (.setProperties "halo" ⟨.communication, false⟩),
      .call (.start (.plain ⟨12⟩) "halo"), .call (.stop (.plain ⟨15⟩) "halo" {})]

theorem exchangeOnce_repeats :
    exchangeOnce.Reachable ∧ exchangeOnce.gathered = false ∧ exchangeOnce.running? = none ∧
      ∃ outcome summary, exchangeOnce.gather ⟨20⟩ 0 1 = .done outcome ∧
        outcome.result = .ok (some summary) ∧
        summary.sections.map SectionSummary.label = ["solve", "halo"] ∧
        List.Forall₂ (SectionSummary.Repeats ["loads", "misses"]) summary.sections
          exchangeOnce.sections ∧
        exchangeOnce.sections.map (fun s ↦ (s.totals.elapsed, s.totals.counters))
          = [(⟨7⟩, [4]), (⟨3⟩, [])] := by
  have hreachable : exchangeOnce.Reachable := (Reachable.build ..).run _
  have hidle : exchangeOnce.running? = none := by decide +kernel
  obtain ⟨outcome, summary, hgather, hresult, -, hlabels, hsections, -, -⟩ :=
    Reachable.lone_gather_repeats hreachable rfl hidle ⟨20⟩
  refine ⟨hreachable, rfl, hidle, outcome, summary, hgather, hresult, ?_, hsections,
    by decide +kernel⟩
  rw [hlabels]
  decide +kernel

end Monitor

end SectionMonitor
