import Mathlib.Data.List.Induction
import Mathlib.Logic.Relation
import SectionMonitor.Proofs.Registry
import SectionMonitor.Proofs.Run

/-!
# Elementary changes of a monitor

Operations of a monitor are made of a few elementary changes: a label is registered, a section is
bound, an interval is opened or closed, and so on. `Edit` lists them together with the condition
under which they are made, and `after_edits` shows that every operation, failed or not, is a finite
sequence of them.

An invariant of all operations is therefore one of nine changes, each of which touches little;
`InStep` is the first one that is shown in this way. The loops (merging, gathering) are dealt with
here once and for all.
-/

namespace SectionMonitor

namespace Monitor

open Exchange (Always always_of_forall)

variable {m m' : Monitor}

/-! ## The changes -/

/-- The monitor without sections, whose root section begins again. -/
def restarted (m : Monitor) (now : Duration) : Monitor :=
  { m with
    registry := {}
    sections := []
    token := none
    rootSection := restartRoot m.rootSection now }

/-- The monitor whose root section has ended for good, because statistics are being gathered. -/
def sealed (m : Monitor) (now : Duration) : Monitor := { m with gathered := true }.stopRoot now

/-- One elementary change of a monitor, with the condition under which it is made. -/
inductive Edit : Monitor → Monitor → Prop
  | register {m : Monitor} {label : String} (hnew : m.lookup label = none) :
      Edit m (m.register label)
  | bind {m : Monitor} {k : ℕ} {s bound : Section} {requested : Properties}
      (hs : m.sections[k]? = some s) (hbound : s.bind? requested = some bound) :
      Edit m (m.modifySection ⟨k + 1⟩ fun _ ↦ bound)
  | openInterval {m : Monitor} {k : ℕ} {s : Section} (here : Surroundings)
      (hs : m.sections[k]? = some s) (hidle : s.phase = .idle) (hfree : m.barrier? s = none) :
      Edit m (m.openInterval here ⟨k + 1⟩)
  | closeInterval {m : Monitor} {k : ℕ} {s : Section} {since : Duration}
      {snapshots : List Snapshot} (here : Surroundings) (work : Work)
      (hs : m.sections[k]? = some s) (hrunning : s.phase = .running since snapshots) :
      Edit m (m.closeInterval here ⟨k + 1⟩ (here.now.saturatingSub since)
        (m.intervalVolume here s.source (m.countSince here snapshots) work)
        (m.countSince here snapshots))
  | clear {m : Monitor} {k : ℕ} {s : Section} (hs : m.sections[k]? = some s)
      (hidle : s.phase = .idle) : Edit m (m.modifySection ⟨k + 1⟩ Section.clear)
  | restart {m : Monitor} (now : Duration) (hidle : m.running? = none) : Edit m (m.restarted now)
  | absorb {m : Monitor} (shares : List Section) : Edit m (m.absorb shares)
  | sealRoot {m : Monitor} (now : Duration) (hopen : m.gathered = false)
      (hidle : m.running? = none) :
      Edit m (m.sealed now)
  | finalize {m : Monitor} (hsealed : m.gathered = true) : Edit m (m.record .finalize)

/-- Any number of elementary changes. -/
abbrev Edits : Monitor → Monitor → Prop := Relation.ReflTransGen Edit

/-! ## What a change leaves alone -/

@[simp] theorem sections_record (m : Monitor) (e : TraceEvent) :
    (m.record e).sections = m.sections := rfl

@[simp] theorem token_record (m : Monitor) (e : TraceEvent) : (m.record e).token = m.token := rfl

@[simp] theorem gathered_record (m : Monitor) (e : TraceEvent) :
    (m.record e).gathered = m.gathered := rfl

@[simp] theorem sections_modifySection (m : Monitor) (k : ℕ) (f : Section → Section) :
    (m.modifySection ⟨k + 1⟩ f).sections = m.sections.modify k f := rfl

@[simp] theorem registry_modifySection (m : Monitor) (k : ℕ) (f : Section → Section) :
    (m.modifySection ⟨k + 1⟩ f).registry = m.registry := rfl

@[simp] theorem token_modifySection (m : Monitor) (k : ℕ) (f : Section → Section) :
    (m.modifySection ⟨k + 1⟩ f).token = m.token := rfl

@[simp] theorem sections_openInterval (m : Monitor) (here : Surroundings) (k : ℕ) :
    (m.openInterval here ⟨k + 1⟩).sections
      = m.sections.modify k fun s ↦ { s with phase := .running here.now (m.takeSnapshots here) } :=
  rfl

@[simp] theorem sections_closeInterval (m : Monitor) (here : Surroundings) (k : ℕ) (d : Duration)
    (v : Float) (r : Reading) :
    (m.closeInterval here ⟨k + 1⟩ d v r).sections = m.sections.modify k fun s ↦ s.finish d v r :=
  rfl

@[simp] theorem registry_closeInterval (m : Monitor) (here : Surroundings) (k : ℕ) (d : Duration)
    (v : Float) (r : Reading) : (m.closeInterval here ⟨k + 1⟩ d v r).registry = m.registry := rfl

@[simp] theorem token_closeInterval (m : Monitor) (here : Surroundings) (k : ℕ) (d : Duration)
    (v : Float) (r : Reading) :
    (m.closeInterval here ⟨k + 1⟩ d v r).token
      = if m.token = some ⟨k + 1⟩ then none else m.token := rfl

@[simp] theorem sections_absorb (m : Monitor) (shares : List Section) :
    (m.absorb shares).sections = m.sections.map fun s ↦ s.absorb (sharesOf shares s.label) := rfl

@[simp] theorem registry_absorb (m : Monitor) (shares : List Section) :
    (m.absorb shares).registry = m.registry := rfl

@[simp] theorem sections_sealed (m : Monitor) (now : Duration) :
    (m.sealed now).sections = m.sections := by
  rw [sealed, stopRoot]
  split <;> rfl

@[simp] theorem registry_sealed (m : Monitor) (now : Duration) :
    (m.sealed now).registry = m.registry := by
  rw [sealed, stopRoot]
  split <;> rfl

@[simp] theorem token_sealed (m : Monitor) (now : Duration) : (m.sealed now).token = m.token := by
  rw [sealed, stopRoot]
  split <;> rfl

@[simp] theorem gathered_sealed (m : Monitor) (now : Duration) :
    (m.sealed now).gathered = true := by
  rw [sealed, stopRoot]
  split <;> rfl

@[simp] theorem gathered_register (m : Monitor) (label : String) :
    (m.register label).gathered = m.gathered := by
  rw [register]
  split <;> rfl

@[simp] theorem token_register (m : Monitor) (label : String) :
    (m.register label).token = m.token := by
  rw [register]
  split <;> rfl

theorem sectionAt_of_section {k : ℕ} {s : Section} (hs : m.sections[k]? = some s) :
    m.sectionAt ⟨k + 1⟩ = s := by
  rw [sectionAt, sectionAt?, hs, Option.getD_some]

/-- Whether an interval is open does not depend on where its snapshots come from. -/
theorem isRunning_eq_false_iff {s : Section} : s.isRunning = false ↔ s.phase = .idle := by
  rw [Section.isRunning]
  cases s.phase <;> simp

theorem running?_eq_none_iff : m.running? = none ↔ ∀ s ∈ m.sections, s.isRunning = false := by
  rw [running?, List.find?_eq_none]
  simp

/-- While nothing runs nothing is known to run. -/
theorem phase_sectionOf_of_idle (hidle : m.running? = none) (label : String) :
    (m.sectionOf label).phase = .idle := by
  obtain hnew | hmem := m.sectionOf_cases label
  · rw [hnew]
  · exact isRunning_eq_false_iff.mp (running?_eq_none_iff.mp hidle _ hmem)

theorem eq_of_bind? {s bound : Section} {requested : Properties}
    (h : s.bind? requested = some bound) :
    bound = { s with properties := requested, binding := .explicit } := by
  rw [Section.bind?] at h
  split at h
  · exact (Option.some.inj h).symm
  · cases h

theorem label_of_bind? {s bound : Section} {requested : Properties}
    (h : s.bind? requested = some bound) : bound.label = s.label := by
  rw [eq_of_bind? h]

/-- Other properties are refused to a section that was bound by name. -/
theorem eq_of_bind?_of_explicit {s bound : Section} {requested : Properties}
    (h : s.bind? requested = some bound) (hbinding : s.binding = .explicit) : bound = s := by
  have hbound := eq_of_bind? h
  rw [Section.bind?] at h
  split at h
  · next hopen =>
    have hsame : s.properties = requested := by
      simpa [Section.isOpenToBinding, hbinding] using hopen
    rw [hbound, ← hsame, ← hbinding]
  · cases h

/-! ## Every change keeps labels and sections in step -/

/-- A change of one section that keeps its label keeps the labels in step. -/
theorem InStep.of_modify (h : m.InStep) (hregistry : m'.registry = m.registry) {k : ℕ} {s : Section}
    {f : Section → Section} (hs : m.sections[k]? = some s) (hf : (f s).label = s.label)
    (hsections : m'.sections = m.sections.modify k f) : m'.InStep := by
  have hlabels : m'.sections.map Section.label = m.sections.map Section.label := by
    rw [hsections]
    apply List.ext_getElem?
    intro j
    rw [List.getElem?_map, List.getElem?_map, List.getElem?_modify]
    by_cases hj : k = j
    · subst hj
      simp [hs, hf]
    · simp [hj]
  exact ⟨by rw [hregistry]; exact h.indexed, by rw [hregistry, hlabels, h.labels_eq],
    by rw [hregistry]; exact h.nodup⟩

theorem Edit.inStep (e : Edit m m') (h : m.InStep) : m'.InStep := by
  cases e with
  | register hnew => exact h.register _
  | bind hs hbound => exact h.of_modify rfl hs (label_of_bind? hbound) rfl
  | openInterval here hs hidle hfree => exact h.of_modify rfl hs rfl rfl
  | closeInterval here work hs hrunning => exact h.of_modify rfl hs rfl rfl
  | clear hs hidle => exact h.of_modify rfl hs rfl rfl
  | restart now hidle => exact ⟨rfl, rfl, List.nodup_nil⟩
  | absorb shares =>
    refine ⟨h.indexed, ?_, h.nodup⟩
    rw [registry_absorb, sections_absorb, h.labels_eq, List.map_map]
    exact List.map_congr_left fun s _ ↦ (s.label_absorb _).symm
  | sealRoot now hopen hidle => 
    exact ⟨by simpa using h.indexed, by simpa using h.labels_eq, by simpa using h.nodup⟩
  | finalize hsealed => exact ⟨h.indexed, h.labels_eq, h.nodup⟩

/-- What a change keeps is kept by any number of changes. -/
theorem Edits.keep {P : Monitor → Prop} (hP : ∀ m m', Edit m m' → P m → P m') (e : Edits m m')
    (h : P m) : P m' := by
  induction e with
  | refl => exact h
  | tail _ step ih => exact hP _ _ step ih

theorem Edits.inStep (e : Edits m m') (h : m.InStep) : m'.InStep :=
  e.keep (fun _ _ step ↦ step.inStep) h

/-! ## Calls as changes -/

theorem register_edits (m : Monitor) (label : String) : Edits m (m.register label) := by
  cases hlookup : m.lookup label with
  | some i => rw [register_of_known hlookup]
  | none => exact .single (.register hlookup)

theorem InStep.sectionAt_register (h : m.InStep) (label : String) :
    (m.register label).sectionAt (m.indexOf label) = m.sectionOf label := by
  obtain ⟨k, hk, hs⟩ := h.exists_section_register label
  rw [hk, sectionAt_of_section hs]

/-- A search by label finds what is known of the label, or nothing is known of it. -/
theorem InStep.find?_cases (h : m.InStep) (label : String) :
    (m.find? label = none ∧ m.sectionOf label = { label := label, source := m.newSource }) ∨
      ∃ i, m.find? label = some (i, m.sectionOf label) := by
  rw [find?]
  cases hlookup : m.lookup label with
  | none => exact .inl ⟨rfl, h.sectionOf_of_new hlookup⟩
  | some i =>
    obtain ⟨k, s, rfl, hs, rfl⟩ := h.exists_section_of_lookup hlookup
    refine .inr ⟨⟨k + 1⟩, ?_⟩
    rw [Option.map_some, sectionAt_of_section hs, h.sectionOf_section hs]

theorem InStep.exists_find?_of_mem (h : m.InStep) {label : String}
    (hmem : label ∈ m.registry.labels) : ∃ i, m.find? label = some (i, m.sectionOf label) := by
  obtain ⟨hnone, -⟩ | hfound := h.find?_cases label
  · have hlookup : m.lookup label = none := by simpa [find?] using hnone
    exact absurd hmem (h.indexed.lookup_eq_none_iff.mp hlookup)
  · exact hfound

/-- Binding is the only way in which properties change, and it is refused without a trace. -/
theorem bind_eq_ok {k : ℕ} {s : Section} {requested : Properties} {m' : Monitor}
    (hs : m.sections[k]? = some s) (h : m.bind ⟨k + 1⟩ requested = .ok m') :
    ∃ bound, s.bind? requested = some bound ∧ m' = m.modifySection ⟨k + 1⟩ fun _ ↦ bound := by
  rw [Monitor.bind, sectionAt_of_section hs] at h
  cases hbound : s.bind? requested with
  | none => simp [hbound] at h
  | some bound =>
    refine ⟨bound, rfl, ?_⟩
    simpa [hbound] using h.symm

/-- **A binding by name.** It is refused for a section with other properties that are no longer
open; either way the label is registered. -/
theorem InStep.setProperties_cases (h : m.InStep) (label : String) (requested : Properties) :
    ((∃ v, (m.setProperties label requested).result = .error v) ∧
        (m.setProperties label requested).monitor = m.register label) ∨
      (∃ k bound, (m.register label).sections[k]? = some (m.sectionOf label) ∧
        (m.sectionOf label).bind? requested = some bound ∧
        (m.setProperties label requested).result = .ok (m.indexOf label) ∧
        (m.setProperties label requested).monitor
          = (m.register label).modifySection ⟨k + 1⟩ fun _ ↦ bound) := by
  obtain ⟨k, hk, hs⟩ := h.exists_section_register label
  rw [setProperties, hk]
  cases hbind : (m.register label).bind ⟨k + 1⟩ requested with
  | error v => exact .inl ⟨⟨v, rfl⟩, rfl⟩
  | ok m' =>
    obtain ⟨bound, hbound, rfl⟩ := bind_eq_ok hs hbind
    exact .inr ⟨k, bound, hs, hbound, rfl, rfl⟩

/-- Whether a binding by name is refused is decided by the section of the label. -/
theorem InStep.result_setProperties (h : m.InStep) (label : String) (requested : Properties) :
    (m.setProperties label requested).result
      = match (m.sectionOf label).bind? requested with
        | some _ => .ok (m.indexOf label)
        | none => .error
            (.conflictingProperties label (m.sectionOf label).properties requested) := by
  rw [setProperties, Monitor.bind, h.sectionAt_register]
  cases (m.sectionOf label).bind? requested with
  | some bound => rfl
  | none => simp [Outcome.refusal]

theorem setProperties_edits (h : m.InStep) (label : String) (requested : Properties) :
    Edits m (m.setProperties label requested).monitor := by
  have hreg := register_edits m label
  obtain ⟨-, hm⟩ | ⟨k, bound, hs, hbound, -, hm⟩ := h.setProperties_cases label requested
  · rwa [hm]
  · rw [hm]
    exact hreg.tail (.bind hs hbound)

/-- **A start.** It is refused for a running section, then for an exclusive one while the token is
taken, and opens an interval otherwise. -/
theorem InStep.start_cases (h : m.InStep) (here : Surroundings) (label : String) :
    ((m.sectionOf label).isRunning = true ∧
        (m.start here label).result = .error (.alreadyRunning label) ∧
        (m.start here label).monitor = m.register label) ∨
      (∃ i, (m.sectionOf label).isRunning = false ∧ (m.sectionOf label).exclusive = true ∧
        m.token = some i ∧
        (m.start here label).result
          = .error (.exclusiveOverlap label (((m.register label).label? i).getD "")) ∧
        (m.start here label).monitor = m.register label) ∨
      ((m.sectionOf label).isRunning = false ∧
        (m.register label).barrier? (m.sectionOf label) = none ∧
        (m.start here label).result = .ok (m.indexOf label) ∧
        (m.start here label).monitor = (m.register label).openInterval here (m.indexOf label)) := by
  have hs := h.sectionAt_register label
  cases hrun : (m.sectionOf label).isRunning with
  | true =>
    left
    simp [start, hs, hrun, Outcome.refusal]
  | false =>
    right
    cases hbar : (m.register label).barrier? (m.sectionOf label) with
    | some i =>
      left
      have hex : (m.sectionOf label).exclusive = true ∧ m.token = some i := by
        rw [barrier?, token_register] at hbar
        split at hbar
        · exact ⟨‹_›, hbar⟩
        · cases hbar
      exact ⟨i, rfl, hex.1, hex.2, by simp [start, hs, hrun, hbar, Outcome.refusal]⟩
    | none =>
      right
      simp [start, hs, hrun, hbar]

theorem start_edits (h : m.InStep) (here : Surroundings) (label : String) :
    Edits m (m.start here label).monitor := by
  have hreg := register_edits m label
  obtain ⟨-, -, hm⟩ | ⟨-, -, -, -, -, hm⟩ | ⟨hidle, hfree, -, hm⟩ := h.start_cases here label
  · rwa [hm]
  · rwa [hm]
  · obtain ⟨k, hk, hs⟩ := h.exists_section_register label
    rw [hm, hk]
    exact hreg.tail (.openInterval here hs (isRunning_eq_false_iff.mp hidle) hfree)

/-- **A stop.** It is refused without a trace unless the label has a running section, whose
interval it closes. -/
theorem InStep.stop_cases (h : m.InStep) (here : Surroundings) (label : String) (work : Work) :
    ((m.sectionOf label).phase = .idle ∧
        (m.stop here label work).result = .error (.notRunning label) ∧
        (m.stop here label work).monitor = m) ∨
      (∃ k since snapshots, m.lookup label = some ⟨k + 1⟩ ∧
        m.sections[k]? = some (m.sectionOf label) ∧
        (m.sectionOf label).phase = .running since snapshots ∧
        (m.stop here label work).result = .ok () ∧
        (m.stop here label work).monitor
          = m.closeInterval here ⟨k + 1⟩ (here.now.saturatingSub since)
              (m.intervalVolume here (m.sectionOf label).source (m.countSince here snapshots) work)
              (m.countSince here snapshots)) := by
  cases hlookup : m.lookup label with
  | none =>
    left
    rw [h.sectionOf_of_new hlookup]
    simp [stop, hlookup, Outcome.refusal]
  | some i =>
    obtain ⟨k, s, rfl, hs, rfl⟩ := h.exists_section_of_lookup hlookup
    rw [h.sectionOf_section hs]
    cases hphase : s.phase with
    | idle =>
      left
      simp [stop, hlookup, sectionAt_of_section hs, hphase, Outcome.refusal]
    | running since snapshots =>
      right
      refine ⟨k, since, snapshots, rfl, hs, rfl, ?_⟩
      simp [stop, hlookup, sectionAt_of_section hs, hphase]

theorem stop_edits (h : m.InStep) (here : Surroundings) (label : String) (work : Work) :
    Edits m (m.stop here label work).monitor := by
  obtain ⟨-, -, hm⟩ | ⟨k, since, snapshots, -, hs, hrunning, -, hm⟩ := h.stop_cases here label work
  · rw [hm]
  · rw [hm]
    exact .single (.closeInterval here work hs hrunning)

/-- **A reset.** It is refused for a running section, and an unknown label is no mistake. -/
theorem InStep.reset_cases (h : m.InStep) (label : String) :
    (m.lookup label = none ∧ (m.reset label).result = .ok () ∧ (m.reset label).monitor = m) ∨
      ((m.reset label).result = .error (.runningDuringReset label) ∧
        (m.reset label).monitor = m) ∨
      (∃ k, m.sections[k]? = some (m.sectionOf label) ∧ (m.sectionOf label).phase = .idle ∧
        (m.reset label).result = .ok () ∧
        (m.reset label).monitor = m.modifySection ⟨k + 1⟩ Section.clear) := by
  rw [reset]
  cases hlookup : m.lookup label with
  | none => exact .inl ⟨rfl, rfl, rfl⟩
  | some i =>
    obtain ⟨k, s, rfl, hs, rfl⟩ := h.exists_section_of_lookup hlookup
    rw [h.sectionOf_section hs]
    simp only [sectionAt_of_section hs]
    cases hrun : s.isRunning with
    | true => exact .inr (.inl ⟨rfl, rfl⟩)
    | false => exact .inr (.inr ⟨k, hs, isRunning_eq_false_iff.mp hrun, rfl, rfl⟩)

theorem reset_edits (h : m.InStep) (label : String) : Edits m (m.reset label).monitor := by
  obtain ⟨-, -, hm⟩ | ⟨-, hm⟩ | ⟨k, hs, hidle, -, hm⟩ := h.reset_cases label
  · rw [hm]
  · rw [hm]
  · rw [hm]
    exact .single (.clear hs hidle)

/-- **Starting over.** It is refused without a trace while a section runs. -/
theorem resetAll_cases (m : Monitor) (now : Duration) :
    ((∃ v, (m.resetAll now).result = .error v) ∧ (m.resetAll now).monitor = m) ∨
      (m.running? = none ∧ (m.resetAll now).result = .ok () ∧
        (m.resetAll now).monitor = m.restarted now) := by
  rw [resetAll]
  cases hrun : m.running? with
  | some s => exact .inl ⟨⟨_, rfl⟩, rfl⟩
  | none => exact .inr ⟨rfl, rfl, rfl⟩

theorem resetAll_edits (m : Monitor) (now : Duration) : Edits m (m.resetAll now).monitor := by
  obtain ⟨-, hm⟩ | ⟨hidle, -, hm⟩ := m.resetAll_cases now
  · rw [hm]
  · rw [hm]
    exact .single (.restart now hidle)

theorem perform_edits (h : m.InStep) (c : Call) : Edits m (m.perform c).monitor := by
  cases c with
  | resolve label => exact register_edits m label
  | setProperties label requested => exact setProperties_edits h label requested
  | start here label => exact start_edits h here label
  | stop here label work => exact stop_edits h here label work
  | reset label => exact reset_edits h label
  | resetAll now => exact resetAll_edits m now

/-! ## Larger operations as changes -/

theorem reconcile_edits (h : m.InStep) (shares : List Section) :
    Edits m (m.reconcile shares).monitor := by
  induction shares generalizing m with
  | nil => exact .refl
  | cons share rest ih =>
    obtain ⟨k, hk, hs⟩ := h.exists_section_register share.label
    have hreg := register_edits m share.label
    rw [reconcile, hk]
    by_cases hexplicit : share.binding = .explicit
    · rw [if_pos hexplicit]
      cases hbind : (m.register share.label).bind ⟨k + 1⟩ share.properties with
      | error v => exact hreg
      | ok m' =>
        obtain ⟨bound, hbound, rfl⟩ := bind_eq_ok hs hbind
        have hstep : Edits m ((m.register share.label).modifySection ⟨k + 1⟩ fun _ ↦ bound) :=
          hreg.tail (.bind hs hbound)
        exact hstep.trans (ih (hstep.inStep h))
    · rw [if_neg hexplicit]
      exact hreg.trans (ih (h.register share.label))

theorem merge_edits (h : m.InStep) (replicas : List Monitor) :
    Edits m (m.merge replicas).monitor := by
  have hrec := reconcile_edits h (replicas.flatMap Monitor.sections)
  rw [merge]
  cases replicas.findSome? running? with
  | some s => exact .refl
  | none =>
    cases hresult : (m.reconcile (replicas.flatMap Monitor.sections)).result with
    | error v => simpa only [hresult] using hrec
    | ok a => simpa only [hresult] using hrec.tail (.absorb _)

theorem parallel_edits (h : m.InStep) (here : Surroundings)
    (body : ℕ → Monitor → Monitor × Ending) : Edits m (m.parallel here body).monitor := by
  rw [parallel, join]
  split
  · exact .refl
  · split
    · exact .refl
    · exact merge_edits h _

theorem registerAll_edits (m : Monitor) (labels : List String) :
    Edits m (m.registerAll labels).1 := by
  induction labels generalizing m with
  | nil => exact .refl
  | cons label rest ih => exact (register_edits m label).trans (ih _)

/-- What no registration changes is unchanged by several. -/
theorem registerAll_eq_of_register {α : Type} {f : Monitor → α}
    (hf : ∀ m label, f (register m label) = f m) (m : Monitor) (labels : List String) :
    f (m.registerAll labels).1 = f m := by
  induction labels generalizing m with
  | nil => rfl
  | cons label rest ih => rw [registerAll, ih, hf]

theorem gathered_registerAll (m : Monitor) (labels : List String) :
    (m.registerAll labels).1.gathered = m.gathered :=
  registerAll_eq_of_register gathered_register m labels

theorem monitor_conclude (m : Monitor) (rank : ℕ) (rootTimes : List Float)
    (events : List String) (sections : List SectionSummary) (notices : List Notice) :
    (m.conclude rank rootTimes events sections notices).monitor = m.record .finalize := by
  rw [conclude]
  split <;> rfl

/-- Whatever the other processes answer, a gather registers labels and then concludes. -/
theorem handOver_always_concludes (m : Monitor) (rank size : ℕ) :
    (m.handOver rank size).Always fun o ↦ ∃ labels rootTimes events sections notices,
      o = (m.registerAll labels).1.conclude rank rootTimes events sections notices := by
  have htrue {α : Type} (x : Exchange α) : x.Always fun _ ↦ True :=
    always_of_forall (fun _ ↦ trivial) x
  rw [handOver]
  cases decide (1 < size) with
  | true =>
    simp only [if_true, Exchange.bind_eq, Exchange.pure_eq]
    exact (htrue _).bind fun labels _ ↦ (htrue _).bind fun events _ ↦
      (htrue _).bind fun rootTimes _ ↦ (htrue _).bind fun sections _ ↦
        ⟨labels, rootTimes, events, sections, _, rfl⟩
  | false =>
    simp only [Bool.false_eq_true, if_false, Exchange.bind_eq, Exchange.pure_eq]
    exact (htrue _).bind fun labels _ ↦ (htrue _).bind fun events _ ↦
      (htrue _).bind fun rootTimes _ ↦ (htrue _).bind fun sections _ ↦
        ⟨[], rootTimes, events, sections, _, rfl⟩

/-- Only the labels that are registered and the final entry of the timeline reach the monitor. -/
theorem handOver_always (m : Monitor) (rank size : ℕ) :
    (m.handOver rank size).Always fun o ↦
      ∃ labels, o.monitor = (m.registerAll labels).1.record .finalize := by
  refine (handOver_always_concludes m rank size).mono ?_
  rintro _ ⟨labels, rootTimes, events, sections, notices, rfl⟩
  exact ⟨labels, monitor_conclude ..⟩

/-- A gather that is not refused ends the root section, registers labels and closes the
timeline. -/
theorem exists_after_gather_eq (hopen : m.gathered = false) (hidle : m.running? = none)
    (now : Duration) (t : Transport) :
    ∃ labels, m.after (.gather now t)
      = ((m.sealed now).registerAll labels).1.record .finalize := by
  rw [after, gather, hopen, hidle]
  exact (handOver_always (m.sealed now) t.rank t.size).answeredBy t 0

/-- **A gather.** It is refused without a trace once statistics have been gathered or while a
section runs. Otherwise it ends the root section, registers labels and closes the timeline. -/
theorem gather_cases (m : Monitor) (now : Duration) (t : Transport) :
    m.after (.gather now t) = m ∨
      (m.gathered = false ∧ m.running? = none ∧
        ∃ labels, m.after (.gather now t)
          = ((m.sealed now).registerAll labels).1.record .finalize) := by
  cases hopen : m.gathered with
  | true =>
    left
    rw [after, gather, hopen]
    rfl
  | false =>
    cases hidle : m.running? with
    | some s =>
      left
      rw [after, gather, hopen, hidle]
      rfl
    | none => exact .inr ⟨rfl, rfl, exists_after_gather_eq hopen hidle now t⟩

theorem gather_edits (m : Monitor) (now : Duration) (t : Transport) :
    Edits m (m.after (.gather now t)) := by
  obtain hm | ⟨hopen, hrun, labels, hm⟩ := m.gather_cases now t
  · rw [hm]
  · have hsealed : ((m.sealed now).registerAll labels).1.gathered = true := by
      rw [gathered_registerAll, gathered_sealed]
    rw [hm]
    exact ((Relation.ReflTransGen.single (.sealRoot now hopen hrun)).trans
      (registerAll_edits _ labels)).tail (.finalize hsealed)

/-- **Operations are sequences of changes.** -/
theorem after_edits (h : m.InStep) (op : Operation) : Edits m (m.after op) := by
  cases op with
  | call c => exact perform_edits h c
  | replica thread => exact .refl
  | merge replicas => exact merge_edits h replicas
  | parallel here body => exact parallel_edits h here body
  | gather now t => exact gather_edits m now t

theorem run_edits (h : m.InStep) (ops : List Operation) : Edits m (m.run ops) := by
  induction ops using List.reverseRecOn with
  | nil => exact .refl
  | append_singleton ops op ih =>
    rw [run_append]
    exact ih.trans (after_edits (ih.inStep h) op)

end Monitor

end SectionMonitor
