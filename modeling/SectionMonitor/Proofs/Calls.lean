import SectionMonitor.Proofs.Replica

/-!
# What a call does

The calls of a thread differ in what they answer, but what they do to a monitor is one of seven
things. `CallStep` lists them, each with the calls that do it and with everything that is known at
that point; `InStep.callStep` says that there is nothing else. A refused call does one of the first
two: nothing at all, or the registration of a label.

What all calls preserve is shown by going through the seven cases. The second part does so for the
properties of sections: `Edit.section_cases` says where a section of a changed monitor has its
properties from, and a section that nobody bound by name has the default ones.
-/

namespace SectionMonitor

/-- What stands in a list of which one place has been changed. -/
theorem mem_modify_cases {sections : List Section} {k : ℕ} {f : Section → Section} {t : Section}
    (h : t ∈ sections.modify k f) :
    (∃ s, sections[k]? = some s ∧ t = f s) ∨ ∃ j ≠ k, sections[j]? = some t := by
  obtain ⟨j, hj⟩ := List.getElem?_of_mem h
  by_cases hjk : j = k
  · subst hjk
    rw [List.getElem?_modify_eq, Option.map_eq_map, Option.map_eq_some_iff] at hj
    obtain ⟨s, hs, rfl⟩ := hj
    exact .inl ⟨s, hs, rfl⟩
  · rw [List.getElem?_modify_ne f _ (Ne.symm hjk)] at hj
    exact .inr ⟨j, hjk, hj⟩

namespace Monitor

variable {m m' : Monitor} {c : Call}

/-! ## The seven cases -/

/-- One thing that a call does to a monitor. -/
inductive CallStep (m : Monitor) : Call → Monitor → Prop
  | nothing {c : Call} : CallStep m c m
  | register {c : Call} (label : String) : CallStep m c (m.register label)
  | bind {label : String} {requested : Properties} {k : ℕ} {bound : Section}
      (hs : (m.register label).sections[k]? = some (m.sectionOf label))
      (hbound : (m.sectionOf label).bind? requested = some bound) :
      CallStep m (.setProperties label requested)
        ((m.register label).modifySection ⟨k + 1⟩ fun _ ↦ bound)
  | openInterval {here : Surroundings} {label : String} {k : ℕ}
      (hk : m.indexOf label = ⟨k + 1⟩)
      (hs : (m.register label).sections[k]? = some (m.sectionOf label))
      (hidle : (m.sectionOf label).phase = .idle)
      (hresult : (m.start here label).result = .ok ⟨k + 1⟩) :
      CallStep m (.start here label) ((m.register label).openInterval here ⟨k + 1⟩)
  | closeInterval {here : Surroundings} {label : String} {work : Work} {k : ℕ} {since : Duration}
      {snapshots : List Snapshot} (hk : m.lookup label = some ⟨k + 1⟩)
      (hs : m.sections[k]? = some (m.sectionOf label))
      (hrunning : (m.sectionOf label).phase = .running since snapshots)
      (hresult : (m.stop here label work).result = .ok ()) :
      CallStep m (.stop here label work)
        (m.closeInterval here ⟨k + 1⟩ (here.now.saturatingSub since)
          (m.intervalVolume here (m.sectionOf label).source (m.countSince here snapshots) work)
          (m.countSince here snapshots))
  | clear {label : String} {k : ℕ} (hs : m.sections[k]? = some (m.sectionOf label))
      (hidle : (m.sectionOf label).phase = .idle) :
      CallStep m (.reset label) (m.modifySection ⟨k + 1⟩ Section.clear)
  | restart {now : Duration} (hidle : m.running? = none) :
      CallStep m (.resetAll now) (m.restarted now)

/-- **What a call does.** -/
theorem InStep.callStep (h : m.InStep) (c : Call) : m.CallStep c (m.perform c).monitor := by
  cases c with
  | resolve label => exact .register label
  | setProperties label requested =>
    rw [perform, Outcome.monitor_map]
    obtain ⟨-, hm⟩ | ⟨k, bound, hs, hbound, -, hm⟩ := h.setProperties_cases label requested
    · rw [hm]
      exact .register label
    · rw [hm]
      exact .bind hs hbound
  | start here label =>
    rw [perform, Outcome.monitor_map]
    obtain ⟨-, -, hm⟩ | ⟨-, -, -, -, -, hm⟩ | ⟨hidle, -, hresult, hm⟩ := h.start_cases here label
    · rw [hm]
      exact .register label
    · rw [hm]
      exact .register label
    · obtain ⟨k, hk, hs⟩ := h.exists_section_register label
      rw [hk] at hm hresult
      rw [hm]
      exact .openInterval hk hs (isRunning_eq_false_iff.mp hidle) hresult
  | stop here label work =>
    rw [perform, Outcome.monitor_map]
    obtain ⟨-, -, hm⟩ | ⟨k, since, snapshots, hk, hs, hrunning, hresult, hm⟩ :=
      h.stop_cases here label work
    · rw [hm]
      exact .nothing
    · rw [hm]
      exact .closeInterval hk hs hrunning hresult
  | reset label =>
    rw [perform, Outcome.monitor_map]
    obtain ⟨-, -, hm⟩ | ⟨-, hm⟩ | ⟨k, hs, hidle, -, hm⟩ := h.reset_cases label
    · rw [hm]
      exact .nothing
    · rw [hm]
      exact .nothing
    · rw [hm]
      exact .clear hs hidle
  | resetAll now =>
    rw [perform, Outcome.monitor_map]
    obtain ⟨-, hm⟩ | ⟨hidle, -, hm⟩ := m.resetAll_cases now
    · rw [hm]
      exact .nothing
    · rw [hm]
      exact .restart hidle

/-! ## Where properties come from -/

/-- **The sections of a changed monitor.** Each one is new, or it is an earlier one of which at most
the totals and the phase have changed, or an earlier one that has just been bound by name. -/
theorem Edit.section_cases (e : Edit m m') {s' : Section} (hs' : s' ∈ m'.sections) :
    (s'.binding = .implicit ∧ s'.properties = {}) ∨
      (∃ s ∈ m.sections, s'.label = s.label ∧ s'.binding = s.binding ∧
        s'.properties = s.properties) ∨
      ∃ s ∈ m.sections, s.bind? s'.properties = some s' := by
  have hmodify {k : ℕ} {s : Section} {f : Section → Section} (hs : m.sections[k]? = some s)
      (hf : (f s).label = s.label ∧ (f s).binding = s.binding ∧ (f s).properties = s.properties)
      (hmem : s' ∈ m.sections.modify k f) :
      ∃ s ∈ m.sections, s'.label = s.label ∧ s'.binding = s.binding ∧
        s'.properties = s.properties := by
    rcases mem_modify_cases hmem with ⟨t, ht, rfl⟩ | ⟨j, -, ht⟩
    · obtain rfl : s = t := Option.some.inj (hs.symm.trans ht)
      exact ⟨s, List.mem_of_getElem? hs, hf⟩
    · exact ⟨s', List.mem_of_getElem? ht, rfl, rfl, rfl⟩
  cases e with
  | register hnew =>
    rw [sections_register_of_new hnew, List.mem_append, List.mem_singleton] at hs'
    rcases hs' with hs' | rfl
    · exact .inr (.inl ⟨s', hs', rfl, rfl, rfl⟩)
    · exact .inl ⟨rfl, rfl⟩
  | @bind k s bound requested hs hbound =>
    rcases mem_modify_cases hs' with ⟨-, -, heq⟩ | ⟨j, -, ht⟩
    · obtain rfl : bound = s' := heq.symm
      have hproperties : bound.properties = requested := by rw [eq_of_bind? hbound]
      exact .inr (.inr ⟨s, List.mem_of_getElem? hs, by rw [hproperties, hbound]⟩)
    · exact .inr (.inl ⟨s', List.mem_of_getElem? ht, rfl, rfl, rfl⟩)
  | openInterval here hs hidle hfree => exact .inr (.inl (hmodify hs ⟨rfl, rfl, rfl⟩ hs'))
  | closeInterval here work hs hrunning => exact .inr (.inl (hmodify hs ⟨rfl, rfl, rfl⟩ hs'))
  | clear hs hidle => exact .inr (.inl (hmodify hs ⟨rfl, rfl, rfl⟩ hs'))
  | restart now hidle => exact absurd hs' List.not_mem_nil
  | absorb shares =>
    rw [sections_absorb, List.mem_map] at hs'
    obtain ⟨s, hs, rfl⟩ := hs'
    exact .inr (.inl ⟨s, hs, s.label_absorb _, s.binding_absorb _, s.properties_absorb _⟩)
  | sealRoot now hopen hidle =>
    rw [sections_sealed] at hs'
    exact .inr (.inl ⟨s', hs', rfl, rfl, rfl⟩)
  | finalize hsealed => exact .inr (.inl ⟨s', hs', rfl, rfl, rfl⟩)

/-- A section that nobody has bound by name has the default properties. -/
def Defaulted (m : Monitor) : Prop :=
  ∀ s ∈ m.sections, s.binding = .implicit → s.properties = {}

theorem Edit.defaulted (e : Edit m m') (h : m.Defaulted) : m'.Defaulted := by
  intro s' hs' himplicit
  rcases e.section_cases hs' with ⟨-, hnew⟩ | ⟨s, hs, -, hbinding, hproperties⟩ | ⟨s, hs, hbound⟩
  · exact hnew
  · rw [hproperties]
    exact h s hs (hbinding.symm.trans himplicit)
  · rw [eq_of_bind? hbound] at himplicit
    cases himplicit

/-- Replicas take over the properties of their parents together with their bindings. -/
theorem Reachable.defaulted (h : m.Reachable) : m.Defaulted := by
  refine h.invariant (fun settings adapterEvents traced now ↦ ?_) (fun m thread hm ih ↦ ?_)
    fun _ _ step ↦ step.defaulted
  · intro s hs
    rw [sections_build] at hs
    exact absurd hs List.not_mem_nil
  · intro s hs himplicit
    rw [hm.inStep.replica_eq] at hs
    obtain ⟨parent, hparent, rfl⟩ := List.mem_map.mp hs
    exact ih parent hparent himplicit

/-- Binding makes no section exclusive that was not. -/
theorem exclusive_of_bind? {s bound : Section} {requested : Properties}
    (h : s.bind? requested = some bound) (hdefault : s.binding = .implicit → s.properties = {})
    (hex : bound.exclusive = true) : s.exclusive = true := by
  have hbound := eq_of_bind? h
  rw [Section.bind?] at h
  split_ifs at h with hopen
  rw [Bool.or_eq_true, decide_eq_true_iff] at hopen
  rcases hopen with hsame | hopen
  · rw [hbound] at hex
    rw [Section.exclusive, hsame]
    exact hex
  · have himplicit : s.binding = .implicit := by
      simp only [Section.isOpenToBinding, Bool.and_eq_true, decide_eq_true_iff] at hopen
      exact hopen.1.1
    rw [Section.exclusive, hdefault himplicit]

end Monitor

end SectionMonitor
