import SectionMonitor.Proofs.Bindings
import SectionMonitor.Proofs.JobSummary
import SectionMonitor.Proofs.Ledger

/-!
# Whose properties a summary shows

Every process sends a code for the properties of a section when a job gathers. A code has all that
is to be known (`Properties.ofCode_code`, `Properties.agreed?_codes`): the properties, and whether
they were bound by name. Those of the lowest rank that bound them count.

What a process has bound is a matter of its past. `Decides` speaks of pasts only, rank by rank: a
rank that did not bind the label is passed over, whatever it has measured and wherever it has the
label from. `Job.lowest_rank_decides` says that this is what the summary shows.
-/

namespace SectionMonitor

open Exchange (together)

/-! ## Codes -/

namespace Properties

theorem ofCode_code (p : Properties) (binding : Binding) : ofCode (p.code binding) = p := by
  obtain ⟨kind, exclusive⟩ := p
  cases kind <;> cases exclusive <;> cases binding <;> rfl

/-- A code tells whether the properties were bound by name. -/
theorem code_and_explicitBit (p : Properties) (binding : Binding) :
    (p.code binding &&& explicitBit != 0) = decide (binding = .explicit) := by
  obtain ⟨kind, exclusive⟩ := p
  cases kind <;> cases exclusive <;> cases binding <;> rfl

/-- **What is made of codes.** Of all sections it is the first one that was bound by name. -/
theorem agreed?_codes (heard : List Section) :
    agreed? (heard.map fun t ↦ t.properties.code t.binding) = heard.findSome? Section.named? := by
  induction heard with
  | nil => rfl
  | cons t rest ih =>
    rw [agreed?, List.map_cons, List.find?_cons, code_and_explicitBit, List.findSome?_cons,
      Section.named?]
    cases t.binding with
    | implicit => exact ih
    | explicit => exact congrArg some (ofCode_code t.properties .explicit)

end Properties

/-- A label that was not bound by name has the default properties, or will have them. -/
theorem Monitor.Reachable.properties_of_unnamed {m : Monitor} (h : m.Reachable) {label : String}
    (hunnamed : m.named? label = none) : (m.sectionOf label).properties = ⟨.computation, true⟩ := by
  have himplicit : (m.sectionOf label).binding = .implicit := by
    rw [named?, Section.named?] at hunnamed
    cases hbinding : (m.sectionOf label).binding with
    | implicit => rfl
    | explicit => simp [hbinding] at hunnamed
  obtain hnew | hmem := m.sectionOf_cases label
  · rw [hnew]
  · exact h.defaulted _ hmem himplicit

/-! ## What the processes of a job arrive at -/

namespace Job

variable {job : Job}

/-- **The properties in a summary.** They are those of the lowest rank that has bound the label by
name, or the default ones. -/
theorem properties_sectionSummary (hready : job.root.Ready) (events : ℕ) (label : String) :
    (job.sectionSummary events label).properties
      = (job.processes.findSome? fun p ↦ p.monitor.named? label).getD ⟨.computation, true⟩ := by
  have hcodes := Properties.agreed?_codes (job.processes.map fun p ↦ p.monitor.sectionOf label)
  rw [List.findSome?_map] at hcodes
  rw [sectionSummary, Section.summarize, hcodes]
  cases hnamed : job.processes.findSome? fun p ↦ p.monitor.named? label with
  | some p => exact congrArg (Option.getD · _) hnamed
  | none =>
    have hroot : job.root.monitor.named? label = none :=
      List.findSome?_eq_none_iff.mp hnamed _ List.mem_cons_self
    have hheard : job.processes.findSome?
        (Section.named? ∘ fun p ↦ p.monitor.sectionOf label) = none := hnamed
    rw [hheard, Option.getD_none, Option.getD_none]
    exact hready.reachable.properties_of_unnamed hroot

/-- **The end of a gather.** The processes of a job that is ready arrive at a summary, and each of
them has a section for each of its labels, with all that it knew of the label before. -/
theorem exists_outcomes (hready : ∀ p ∈ job.processes, p.Ready) :
    ∃ labels events outcomes, together job.exchanges = some outcomes ∧
      outcomes.map Outcome.result
        = .ok (some (job.summary labels events))
          :: List.replicate job.others.length (.ok none) ∧
      ∀ o ∈ outcomes, ∃ p ∈ job.processes, ∀ label ∈ labels, ∃ i,
        o.monitor.find? label = some (i, p.monitor.sectionOf label) := by
  obtain ⟨labels, events, outcomes, htogether, hresults, hmonitors, -⟩ := job.exists_joined hready
  refine ⟨labels, events, outcomes, htogether, hresults, fun o ho ↦ ?_⟩
  have hmonitor : o.monitor ∈ outcomes.map Outcome.monitor := List.mem_map_of_mem ho
  rw [hmonitors] at hmonitor
  obtain ⟨p, hp, hm⟩ := List.mem_map.mp hmonitor
  have hsealed := (hready p hp).reachable.inStep.sealed p.now
  refine ⟨p, hp, fun label hlabel ↦ ?_⟩
  obtain ⟨i, hfind⟩ := (hsealed.registerAll labels).exists_find?_of_mem
    (hsealed.mem_labels_registerAll.mpr (.inl hlabel))
  rw [Monitor.sectionOf_registerAll hsealed, Monitor.sectionOf_sealed] at hfind
  refine ⟨i, ?_⟩
  rw [← hm]
  exact hfind

end Job

/-! ## Pasts -/

/-- The past of a process that gathers: what it was begun with, what happened since, and the time of
the gather. -/
structure History where
  beginning : Monitor
  begins : beginning.Begins
  ops : List Monitor.Operation
  now : Duration

namespace History

/-- What the past has made of the process. -/
def process (h : History) : Process := ⟨h.beginning.run h.ops, h.now⟩

/-- The label was bound by name to the properties since all sections were last forgotten. -/
def Bound (h : History) (label : String) (p : Properties) : Prop :=
  h.beginning.BoundSince label p h.ops

theorem bound_iff {h : History} {label : String} {p : Properties} :
    h.Bound label p ↔ h.process.monitor.named? label = some p :=
  h.begins.reachable.inStep.boundSince_iff h.ops

end History

/-- The properties that count for a label in a job with these pasts, from rank zero on. Ranks that
did not bind the label are passed over; if there are no others, the defaults count. -/
inductive Decides (label : String) : List History → Properties → Prop
  | nobody : Decides label [] ⟨.computation, true⟩
  | bound {h : History} {rest : List History} {p : Properties} (hbound : h.Bound label p) :
      Decides label (h :: rest) p
  | passedOver {h : History} {rest : List History} {p : Properties}
      (hunbound : ∀ q, ¬h.Bound label q) (hrest : Decides label rest p) :
      Decides label (h :: rest) p

theorem decides_iff {label : String} {pasts : List History} {p : Properties} :
    Decides label pasts p ↔
      p = (pasts.findSome? fun h ↦ h.process.monitor.named? label).getD ⟨.computation, true⟩ := by
  induction pasts with
  | nil =>
    refine ⟨fun hdecides ↦ ?_, fun hp ↦ ?_⟩
    · cases hdecides
      rfl
    · subst hp
      exact .nobody
  | cons h rest ih =>
    rw [List.findSome?_cons]
    cases hnamed : h.process.monitor.named? label with
    | some q =>
      refine ⟨fun hdecides ↦ ?_, fun hp ↦ ?_⟩
      · cases hdecides with
        | bound hbound => exact Option.some.inj ((History.bound_iff.mp hbound).symm.trans hnamed)
        | passedOver hunbound => exact absurd (History.bound_iff.mpr hnamed) (hunbound q)
      · subst hp
        exact .bound (History.bound_iff.mpr hnamed)
    | none =>
      refine ⟨fun hdecides ↦ ?_, fun hp ↦ ?_⟩
      · cases hdecides with
        | bound hbound => cases (History.bound_iff.mp hbound).symm.trans hnamed
        | passedOver hunbound hrest => exact ih.mp hrest
      · refine .passedOver (fun q hbound ↦ ?_) (ih.mpr hp)
        cases (History.bound_iff.mp hbound).symm.trans hnamed

namespace Job

/-- The job of processes with these pasts. -/
def ofPasts (root : History) (others : List History) : Job :=
  ⟨root.process, others.map History.process⟩

theorem processes_ofPasts (root : History) (others : List History) :
    (ofPasts root others).processes = (root :: others).map History.process := rfl

/-- **The lowest rank that has bound a label decides on its properties.** A job whose processes are
ready gathers a summary on rank zero and nothing on the others. The properties of each section are
those that the lowest rank has bound by name since it last forgot all sections. If no rank has, they
are the default ones, and every rank has a section with the default properties. -/
theorem lowest_rank_decides (root : History) (others : List History)
    (hready : ∀ h ∈ root :: others, h.process.Ready) :
    ∃ summary outcomes, together (ofPasts root others).exchanges = some outcomes ∧
      outcomes.map Outcome.result
        = .ok (some summary) :: List.replicate others.length (.ok none) ∧
      ∀ s ∈ summary.sections,
        Decides s.label (root :: others) s.properties ∧
          ((∀ h ∈ root :: others, ∀ p, ¬h.Bound s.label p) →
            s.properties = ⟨.computation, true⟩ ∧
              ∀ o ∈ outcomes, ∃ i t, o.monitor.find? s.label = some (i, t) ∧
                t.properties = ⟨.computation, true⟩) := by
  have hprocesses : ∀ p ∈ (ofPasts root others).processes, p.Ready := by
    rw [processes_ofPasts]
    exact List.forall_mem_map.mpr hready
  obtain ⟨labels, events, outcomes, htogether, hresults, hkept⟩ := exists_outcomes hprocesses
  have hlength : (ofPasts root others).others.length = others.length := List.length_map ..
  refine ⟨_, outcomes, htogether, hlength ▸ hresults, fun s hs ↦ ?_⟩
  obtain ⟨label, hlabel, rfl⟩ := List.mem_map.mp hs
  have hname : ((ofPasts root others).sectionSummary events.length label).label = label :=
    Monitor.label_sectionOf _ _
  have hroot : (ofPasts root others).root.Ready := hready root List.mem_cons_self
  have hproperties := properties_sectionSummary hroot events.length label
  rw [processes_ofPasts, List.findSome?_map] at hproperties
  have hdecides : Decides label (root :: others)
      ((ofPasts root others).sectionSummary events.length label).properties :=
    decides_iff.mpr hproperties
  rw [hname]
  refine ⟨hdecides, fun hunbound ↦ ?_⟩
  have hunnamed : ∀ h ∈ root :: others, h.process.monitor.named? label = none :=
    fun h hh ↦ Option.eq_none_iff_forall_ne_some.mpr fun p hp ↦
      hunbound h hh p (History.bound_iff.mpr hp)
  refine ⟨?_, fun o ho ↦ ?_⟩
  · rw [hproperties]
    exact congrArg (Option.getD · _) (List.findSome?_eq_none_iff.mpr hunnamed)
  · obtain ⟨p, hp, hfind⟩ := hkept o ho
    obtain ⟨i, hi⟩ := hfind label hlabel
    refine ⟨i, _, hi, (hprocesses p hp).reachable.properties_of_unnamed ?_⟩
    obtain ⟨h, hh, rfl⟩ := List.mem_map.mp (processes_ofPasts root others ▸ hp)
    exact hunnamed h hh

/-- A process that was built without anything and has gone through the operations. -/
def pastOf (ops : List Monitor.Operation) : History where
  beginning := .build {} none false .zero
  begins := .build ..
  ops := ops
  now := .zero

/-- A process that has used the label without binding it. -/
def measuring : History :=
  pastOf [.call (.start (.plain .zero) "halo"), .call (.stop (.plain .zero) "halo" {})]

/-- A process that has bound the label, but forgotten all sections since. -/
def forgetting : History :=
  pastOf [.call (.setProperties "halo" ⟨.computation, false⟩), .call (.resetAll .zero),
    .call (.resolve "halo")]

/-- A process that has bound the label as a communication. -/
def binding : History := pastOf [.call (.setProperties "halo" ⟨.communication, false⟩)]

/-- Of the three, the process that has bound the label decides, although it has the highest rank. -/
theorem highest_rank_decides :
    (∀ h ∈ [measuring, forgetting, binding], h.process.Ready) ∧
      ∃ summary outcomes,
        together (ofPasts measuring [forgetting, binding]).exchanges = some outcomes ∧
        outcomes.map Outcome.result = [.ok (some summary), .ok none, .ok none] ∧
        summary.sections.map SectionSummary.label = ["halo"] ∧
        ∀ s ∈ summary.sections, s.properties = ⟨.communication, false⟩ := by
  have hready : ∀ h ∈ [measuring, forgetting, binding], h.process.Ready := by
    intro h hh
    refine ⟨h.begins.reachable.run h.ops, ?_, ?_⟩
    · revert h
      decide +kernel
    · revert h
      decide +kernel
  -- Which sections there are is not said by the theorem, so it is computed.
  have hgathered : (together (ofPasts measuring [forgetting, binding]).exchanges).map
      (fun outcomes ↦ (outcomes.map Outcome.result).filterMap fun result ↦
        result.toOption.join.map fun summary ↦ summary.sections.map SectionSummary.label)
      = some [["halo"]] := by
    decide +kernel
  obtain ⟨summary, outcomes, htogether, hresults, hsections⟩ :=
    lowest_rank_decides measuring [forgetting, binding] hready
  rw [htogether, Option.map_some, hresults] at hgathered
  have hlabels : summary.sections.map SectionSummary.label = ["halo"] :=
    (List.cons.inj (Option.some.inj hgathered)).1
  refine ⟨hready, summary, outcomes, htogether, hresults, hlabels, fun s hs ↦ ?_⟩
  have hlabel : s.label = "halo" := by
    rw [← List.mem_singleton, ← hlabels]
    exact List.mem_map_of_mem hs
  rw [decides_iff.mp (hsections s hs).1, hlabel]
  decide +kernel

end Job

end SectionMonitor
