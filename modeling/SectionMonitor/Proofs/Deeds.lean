import Mathlib.Logic.Function.Basic
import SectionMonitor.Proofs.Agreement
import SectionMonitor.Proofs.Replica

/-!
# Deeds

A deed is a call that was not refused and that changes what is measured: a section was started, or
stopped, or emptied. The `figures` of a label are the totals and the phase of its section, and those
of a label without a section are those that it would begin with. Nothing but deeds changes figures.

`Effect` says so for a single operation: a refused call, a binding, a registration, a replica and a
gather leave all figures alone, and a deed changes those of its label (`InStep.effect_after`).
-/

namespace SectionMonitor

namespace Monitor

variable {m m' m'' : Monitor} {label : String}

/-! ## What is done -/

/-- A call that was not refused and that changes what is measured. -/
inductive Deed where
  | started (here : Surroundings) (label : String)
  | stopped (here : Surroundings) (label : String) (work : Work)
  | emptied (label : String)
  | emptiedAll

/-- What is done if the call is not refused. -/
def Call.deed? : Call → Option Deed
  | .start here label => some (.started here label)
  | .stop here label work => some (.stopped here label work)
  | .reset label => some (.emptied label)
  | .resetAll _ => some .emptiedAll
  | _ => none

/-- What an operation does, if it does anything that counts. -/
def deed? (m : Monitor) : Operation → Option Deed
  | .call c => (m.perform c).result.toOption.bind fun _ ↦ c.deed?
  | _ => none

/-- What is done by several operations, in order. -/
def deeds : Monitor → List Operation → List Deed
  | _, [] => []
  | m, op :: ops => (m.deed? op).toList ++ deeds (m.after op) ops

theorem deeds_append (m : Monitor) (ops : List Operation) (op : Operation) :
    m.deeds (ops ++ [op]) = m.deeds ops ++ ((m.run ops).deed? op).toList := by
  induction ops generalizing m with
  | nil => simp [deeds]
  | cons first ops ih =>
    rw [List.cons_append, deeds, deeds, ih, List.append_assoc]
    rfl

/-- A stop in the ledger of a run is one of its operations. -/
theorem stop_mem_of_mem_deeds {ops : List Operation} {here : Surroundings} {work : Work}
    (h : .stopped here label work ∈ m.deeds ops) : .call (.stop here label work) ∈ ops := by
  induction ops generalizing m with
  | nil => exact absurd h List.not_mem_nil
  | cons op ops ih =>
    rw [deeds, List.mem_append, Option.mem_toList] at h
    rcases h with h | h
    · cases op with
      | call c =>
        obtain ⟨-, -, hc⟩ := Option.bind_eq_some_iff.mp h
        cases c <;> simp [Call.deed?] at hc
        obtain ⟨rfl, rfl, rfl⟩ := hc
        exact List.mem_cons_self
      | replica thread => cases h
      | merge replicas => cases h
      | parallel here body => cases h
      | gather now t => cases h
    · exact List.mem_cons_of_mem op (ih h)

/-- The operation does not bring in what other monitors measured. -/
def Operation.Solo : Operation → Prop
  | .merge _ => False
  | .parallel _ _ => False
  | _ => True

/-! ## The setup of a monitor -/

/-- The monitors measure in the same way. -/
structure SetUpAs (m m' : Monitor) : Prop where
  settings_eq : m.settings = m'.settings
  events_eq : m.events = m'.events
  scope_eq : m.scope = m'.scope

namespace SetUpAs

theorem refl (m : Monitor) : m.SetUpAs m := ⟨rfl, rfl, rfl⟩

theorem trans (h : m.SetUpAs m') (h' : m'.SetUpAs m'') : m.SetUpAs m'' :=
  ⟨h.settings_eq.trans h'.settings_eq, h.events_eq.trans h'.events_eq,
    h.scope_eq.trans h'.scope_eq⟩

theorem register (m : Monitor) (label : String) : (m.register label).SetUpAs m := by
  rw [Monitor.register]
  split <;> exact ⟨rfl, rfl, rfl⟩

theorem countersActive_eq (h : m.SetUpAs m') : m.countersActive = m'.countersActive := by
  rw [countersActive, countersActive, h.events_eq]

theorem newSource_eq (h : m.SetUpAs m') : m.newSource = m'.newSource := by
  rw [newSource, newSource, h.settings_eq, h.countersActive_eq]

theorem takeSnapshots_eq (h : m.SetUpAs m') (here : Surroundings) :
    m.takeSnapshots here = m'.takeSnapshots here := by
  rw [takeSnapshots, takeSnapshots, h.countersActive_eq, measuredThreads, measuredThreads,
    h.scope_eq]

theorem countSince_eq (h : m.SetUpAs m') (here : Surroundings) (snapshots : List Snapshot) :
    m.countSince here snapshots = m'.countSince here snapshots := by
  rw [countSince, countSince, h.countersActive_eq]

theorem intervalVolume_eq (h : m.SetUpAs m') (here : Surroundings) (source : VolumeSource)
    (counted : Reading) (work : Work) :
    m.intervalVolume here source counted work = m'.intervalVolume here source counted work := by
  rw [intervalVolume.eq_def, intervalVolume.eq_def, h.countersActive_eq]

end SetUpAs

theorem Edit.setUpAs (e : Edit m m') : m'.SetUpAs m := by
  cases e with
  | register hnew => exact .register m _
  | sealRoot now hopen hidle =>
    rw [sealed, stopRoot]
    split <;> exact ⟨rfl, rfl, rfl⟩
  | bind hs hbound => exact ⟨rfl, rfl, rfl⟩
  | openInterval here hs hidle hfree => exact ⟨rfl, rfl, rfl⟩
  | closeInterval here work hs hrunning => exact ⟨rfl, rfl, rfl⟩
  | clear hs hidle => exact ⟨rfl, rfl, rfl⟩
  | restart now hidle => exact ⟨rfl, rfl, rfl⟩
  | absorb shares => exact ⟨rfl, rfl, rfl⟩
  | finalize hsealed => exact ⟨rfl, rfl, rfl⟩

theorem Edits.setUpAs (e : Edits m m') : m'.SetUpAs m :=
  e.keep (P := fun m' ↦ m'.SetUpAs m) (fun _ _ step h ↦ step.setUpAs.trans h) (.refl m)

/-! ## Where volumes come from -/

/-- The volumes of all sections come from the source that a new section would have. -/
def OneSource (m : Monitor) : Prop := ∀ s ∈ m.sections, s.source = m.newSource

theorem OneSource.modify (h : m.OneSource) {k : ℕ} {f : Section → Section}
    (hsections : m'.sections = m.sections.modify k f) (hsetup : m'.SetUpAs m)
    (hf : ∀ s, m.sections[k]? = some s → (f s).source = s.source) : m'.OneSource := by
  intro s hs
  obtain ⟨j, hj⟩ := List.getElem?_of_mem hs
  rw [hsections, List.getElem?_modify, Option.map_eq_map, Option.map_eq_some_iff] at hj
  obtain ⟨t, ht, rfl⟩ := hj
  rw [hsetup.newSource_eq, ← h t (List.mem_of_getElem? ht)]
  split
  · next hkj =>
    subst hkj
    exact hf t ht
  · rfl

theorem Edit.oneSource (e : Edit m m') (h : m.OneSource) : m'.OneSource := by
  have hsetup := e.setUpAs
  cases e with
  | register hnew =>
    intro s hs
    rw [sections_register_of_new hnew, List.mem_append, List.mem_singleton] at hs
    rw [hsetup.newSource_eq]
    rcases hs with hs | rfl
    · exact h s hs
    · rfl
  | bind hs hbound =>
    refine h.modify (sections_modifySection ..) hsetup fun s hs' ↦ ?_
    cases hs.symm.trans hs'
    rw [eq_of_bind? hbound]
  | openInterval here hs hidle hfree =>
    exact h.modify (sections_openInterval ..) hsetup fun _ _ ↦ rfl
  | closeInterval here work hs hrunning =>
    exact h.modify (sections_closeInterval ..) hsetup fun _ _ ↦ rfl
  | clear hs hidle => exact h.modify (sections_modifySection ..) hsetup fun _ _ ↦ rfl
  | restart now hidle => exact fun s hs ↦ absurd hs List.not_mem_nil
  | absorb shares =>
    intro s hs
    rw [sections_absorb, List.mem_map] at hs
    obtain ⟨t, ht, rfl⟩ := hs
    rw [Section.source_absorb, hsetup.newSource_eq]
    exact h t ht
  | sealRoot now hopen hidle =>
    intro s hs
    rw [sections_sealed] at hs
    rw [hsetup.newSource_eq, h s hs]
  | finalize hsealed => exact h

theorem Reachable.oneSource (h : m.Reachable) : m.OneSource := by
  refine h.invariant (fun settings adapterEvents traced now ↦ ?_) (fun m thread hm ih ↦ ?_)
    fun _ _ step ↦ step.oneSource
  · intro s hs
    rw [sections_build] at hs
    exact absurd hs List.not_mem_nil
  · intro s hs
    rw [hm.inStep.replica_eq] at hs ⊢
    obtain ⟨t, ht, rfl⟩ := List.mem_map.mp hs
    exact ih t ht

theorem OneSource.source_sectionOf (h : m.OneSource) (label : String) :
    (m.sectionOf label).source = m.newSource := by
  obtain hnew | hmem := m.sectionOf_cases label
  · rw [hnew]
  · exact h _ hmem

/-! ## Figures -/

/-- What was measured of a section, and whether it runs. -/
structure Figures where
  totals : Totals := {}
  phase : Phase := .idle

/-- The figures of the section with a label. -/
def figures (m : Monitor) (label : String) : Figures :=
  ⟨(m.sectionOf label).totals, (m.sectionOf label).phase⟩

/-- A change of one section is a change of what is known of its label. -/
theorem InStep.sectionOf_modify (h : m.InStep) {k : ℕ} {s : Section} {f : Section → Section}
    (hsections : m'.sections = m.sections.modify k f) (hregistry : m'.registry = m.registry)
    (hsetup : m'.SetUpAs m) (hs : m.sections[k]? = some s) (hf : (f s).label = s.label)
    (label : String) :
    m'.sectionOf label = if label = s.label then f s else m.sectionOf label := by
  have hin : m'.InStep := h.of_modify hregistry hs hf hsections
  split_ifs with hlabel
  · have hs' : m'.sections[k]? = some (f s) := by
      simp [hsections, hs]
    rw [hlabel, ← hf, hin.sectionOf_section hs']
  · cases hlookup : m.lookup label with
    | none =>
      have hlookup' : m'.lookup label = none := by rwa [lookup, hregistry]
      rw [h.sectionOf_of_new hlookup, hin.sectionOf_of_new hlookup', hsetup.newSource_eq]
    | some i =>
      obtain ⟨j, t, rfl, ht, rfl⟩ := h.exists_section_of_lookup hlookup
      have hjk : k ≠ j := by
        rintro rfl
        cases hs.symm.trans ht
        exact hlabel rfl
      have ht' : m'.sections[j]? = some t := by
        simp [hsections, hjk, ht]
      rw [h.sectionOf_section ht, hin.sectionOf_section ht']

/-- What a change of one section does to the figures. -/
theorem InStep.figures_modify (h : m.InStep) {k : ℕ} {s : Section} {f : Section → Section}
    (hsections : m'.sections = m.sections.modify k f) (hregistry : m'.registry = m.registry)
    (hsetup : m'.SetUpAs m) (hs : m.sections[k]? = some s) (hf : (f s).label = s.label) :
    m'.figures = Function.update m.figures s.label ⟨(f s).totals, (f s).phase⟩ := by
  funext label
  rw [figures, h.sectionOf_modify hsections hregistry hsetup hs hf, Function.update_apply]
  split <;> rfl

theorem InStep.figures_register (h : m.InStep) (label : String) :
    (m.register label).figures = m.figures := by
  funext other
  rw [figures, sectionOf_register h, figures]

/-! ## What an operation does to the figures -/

/-- What is done changes the figures of its label. -/
def Effect (m m' : Monitor) : Option Deed → Prop
  | none => m'.figures = m.figures
  | some (.started here label) =>
    (m.figures label).phase = .idle ∧
      m'.figures = Function.update m.figures label
        ⟨(m.figures label).totals, .running here.now (m.takeSnapshots here)⟩
  | some (.stopped here label work) =>
    ∃ since snapshots, (m.figures label).phase = .running since snapshots ∧
      m'.figures = Function.update m.figures label
        ⟨(m.figures label).totals.record (here.now.saturatingSub since)
          (m.intervalVolume here m.newSource (m.countSince here snapshots) work)
          (m.countSince here snapshots), .idle⟩
  | some (.emptied label) =>
    (m.figures label).phase = .idle ∧ m'.figures = Function.update m.figures label {}
  | some .emptiedAll => (∀ label, (m.figures label).phase = .idle) ∧ m'.figures = fun _ ↦ {}

theorem InStep.figures_setProperties (h : m.InStep) (label : String) (requested : Properties) :
    (m.setProperties label requested).monitor.figures = m.figures := by
  obtain ⟨-, hm⟩ | ⟨k, bound, hs, hbound, -, hm⟩ := h.setProperties_cases label requested
  · rw [hm, h.figures_register]
  · rw [hm, (h.register label).figures_modify (sections_modifySection ..) rfl ⟨rfl, rfl, rfl⟩ hs
      (label_of_bind? hbound), h.figures_register, eq_of_bind? hbound, label_sectionOf]
    exact Function.update_eq_self label m.figures

theorem InStep.effect_start (h : m.InStep) (here : Surroundings) (label : String) :
    m.Effect (m.start here label).monitor (m.deed? (.call (.start here label))) := by
  rw [deed?, Monitor.perform, Outcome.result_map]
  obtain ⟨-, hr, hm⟩ | ⟨i, -, -, -, hr, hm⟩ | ⟨hidle, -, hr, hm⟩ := h.start_cases here label
  · rw [hr, hm]
    exact h.figures_register label
  · rw [hr, hm]
    exact h.figures_register label
  · obtain ⟨k, hk, hs⟩ := h.exists_section_register label
    rw [hr, hm, hk]
    refine ⟨isRunning_eq_false_iff.mp hidle, ?_⟩
    rw [(h.register label).figures_modify (sections_openInterval ..) rfl ⟨rfl, rfl, rfl⟩ hs rfl,
      h.figures_register, label_sectionOf, (SetUpAs.register m label).takeSnapshots_eq]
    rfl

theorem InStep.effect_stop (h : m.InStep) (hsource : m.OneSource) (here : Surroundings)
    (label : String) (work : Work) :
    m.Effect (m.stop here label work).monitor (m.deed? (.call (.stop here label work))) := by
  rw [deed?, Monitor.perform, Outcome.result_map]
  obtain ⟨-, hr, hm⟩ | ⟨k, since, snapshots, -, hs, hrunning, hr, hm⟩ :=
    h.stop_cases here label work
  · rw [hr, hm]
    exact rfl
  · rw [hr, hm]
    refine ⟨since, snapshots, hrunning, ?_⟩
    rw [h.figures_modify (sections_closeInterval ..) rfl ⟨rfl, rfl, rfl⟩ hs rfl, label_sectionOf,
      hsource.source_sectionOf]
    rfl

theorem InStep.effect_reset (h : m.InStep) (label : String) :
    m.Effect (m.reset label).monitor (m.deed? (.call (.reset label))) := by
  rw [deed?, Monitor.perform, Outcome.result_map]
  obtain ⟨hnew, hr, hm⟩ | ⟨hr, hm⟩ | ⟨k, hs, hidle, hr, hm⟩ := h.reset_cases label
  · have hfigures : m.figures label = {} := by
      rw [figures, h.sectionOf_of_new hnew]
    rw [hr, hm]
    refine ⟨by rw [hfigures], ?_⟩
    rw [← hfigures]
    exact (Function.update_eq_self label m.figures).symm
  · rw [hr, hm]
    exact rfl
  · rw [hr, hm]
    refine ⟨hidle, ?_⟩
    rw [h.figures_modify (sections_modifySection ..) rfl ⟨rfl, rfl, rfl⟩ hs rfl, label_sectionOf]
    simp only [Section.clear, hidle]

theorem effect_resetAll (m : Monitor) (now : Duration) :
    m.Effect (m.resetAll now).monitor (m.deed? (.call (.resetAll now))) := by
  rw [deed?, Monitor.perform, Outcome.result_map]
  obtain ⟨⟨v, hr⟩, hm⟩ | ⟨hidle, hr, hm⟩ := m.resetAll_cases now
  · rw [hr, hm]
    exact rfl
  · rw [hr, hm]
    exact ⟨phase_sectionOf_of_idle hidle, rfl⟩

/-- A gather changes nothing that is known of a label. -/
theorem InStep.sectionOf_gather (h : m.InStep) (now : Duration) (t : Transport) (label : String) :
    (m.after (.gather now t)).sectionOf label = m.sectionOf label := by
  obtain hm | ⟨-, -, labels, hm⟩ := m.gather_cases now t
  · rw [hm]
  · rw [hm, ← sectionOf_sealed m now label, ← sectionOf_registerAll (h.sealed now) labels label]
    rfl

theorem InStep.figures_gather (h : m.InStep) (now : Duration) (t : Transport) :
    (m.after (.gather now t)).figures = m.figures := by
  funext label
  rw [figures, h.sectionOf_gather, figures]

/-- **What an operation does to the figures.** They change by what is done, and by nothing else. -/
theorem InStep.effect_after (h : m.InStep) (hsource : m.OneSource) {op : Operation}
    (hsolo : op.Solo) : m.Effect (m.after op) (m.deed? op) := by
  cases op with
  | call c =>
    cases c with
    | resolve label => exact h.figures_register label
    | setProperties label requested =>
      have hdeed : m.deed? (.call (.setProperties label requested)) = none := by
        rw [deed?]
        cases (m.perform (.setProperties label requested)).result <;> rfl
      rw [hdeed]
      exact h.figures_setProperties label requested
    | start here label => exact h.effect_start here label
    | stop here label work => exact h.effect_stop hsource here label work
    | reset label => exact h.effect_reset label
    | resetAll now => exact m.effect_resetAll now
  | replica thread => exact rfl
  | merge replicas => exact absurd hsolo id
  | parallel here body => exact absurd hsolo id
  | gather now t => exact h.figures_gather now t

end Monitor

end SectionMonitor
