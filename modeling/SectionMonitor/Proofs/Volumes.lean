import SectionMonitor.Proofs.Calls
import SectionMonitor.Proofs.Deeds
import SectionMonitor.Proofs.Merge
import SectionMonitor.Proofs.Program

/-!
# One source of volumes

The volumes of all sections of a configuration come from one source: from the measured program, from
the adapter, or from nowhere. What the other sources would have to say is not asked for. So nothing
that a program can ever see of its monitors depends on the works that it states, unless they are the
source, nor on the volumes that the adapter would derive, unless the adapter is.
-/

namespace SectionMonitor

/-! ## What is not asked for -/

/-- The surroundings with an adapter that derives nothing. -/
def Surroundings.underived (here : Surroundings) : Surroundings :=
  { here with derive := fun _ _ ↦ 0 }

/-- The program without the works that it states. -/
def Program.unweighed (p : Program) : Program := p.map id fun _ ↦ {}

/-- The program with an adapter that derives nothing. -/
def Program.underived (p : Program) : Program := p.map Surroundings.underived id

/-- The source of all volumes of a configuration. An adapter without events is none. -/
def Settings.source (settings : Settings) (adapterEvents : Option (List String)) : VolumeSource :=
  .resolve settings.volumeMode (!(adapterEvents.getD []).isEmpty)

namespace Monitor

variable {m m' : Monitor} {settings : Settings} {adapterEvents : Option (List String)}

/-- A stop asks for the time, for the counters, and for the volume. -/
theorem stop_congr (m : Monitor) {here here' : Surroundings} {label : String} {work work' : Work}
    (hnow : here'.now = here.now) (hadvance : here'.advance = here.advance)
    (hvolume : ∀ i, m.lookup label = some i → ∀ counted,
      m.intervalVolume here' (m.sectionAt i).source counted work'
        = m.intervalVolume here (m.sectionAt i).source counted work) :
    m.stop here' label work' = m.stop here label work := by
  rw [stop, stop]
  cases hlookup : m.lookup label with
  | none => rfl
  | some i =>
    cases hphase : (m.sectionAt i).phase with
    | idle => simp only [hphase]
    | running since snapshots =>
      have hcounted : m.countSince here' snapshots = m.countSince here snapshots := by
        rw [countSince, countSince, hadvance]
      simp only [hphase, hcounted, hvolume i hlookup, hnow, closeInterval]

/-! ## The configuration of a family -/

namespace Family

theorem setUp (h : Family settings adapterEvents m) :
    m.settings = settings ∧ m.events = adapterEvents.getD [] := by
  induction h with
  | build traced now =>
    rw [Monitor.build]
    split <;> exact ⟨rfl, rfl⟩
  | replica thread hm ih =>
    rw [hm.reachable.inStep.replica_eq]
    exact ih
  | call c hm ih =>
    have hsetup := (perform_edits hm.reachable.inStep c).setUpAs
    rwa [hsetup.settings_eq, hsetup.events_eq]
  | @merge m replicas hm hreplicas ih _ =>
    have hsetup := (merge_edits hm.reachable.inStep replicas).setUpAs
    rwa [hsetup.settings_eq, hsetup.events_eq]
  | @gather m now t hm ih =>
    have hsetup := (gather_edits m now t).setUpAs
    rwa [hsetup.settings_eq, hsetup.events_eq]

theorem newSource_eq (h : Family settings adapterEvents m) :
    m.newSource = settings.source adapterEvents := by
  rw [newSource, countersActive, h.setUp.1, h.setUp.2, Settings.source]

/-- **The source of a section.** It is that of the configuration. -/
theorem source_eq (h : Family settings adapterEvents m) {s : Section} (hs : s ∈ m.sections) :
    s.source = settings.source adapterEvents :=
  (h.reachable.oneSource s hs).trans h.newSource_eq

theorem source_sectionAt (h : Family settings adapterEvents m) {label : String} {i : Index}
    (hi : m.lookup label = some i) : (m.sectionAt i).source = settings.source adapterEvents := by
  obtain ⟨k, s, rfl, hs, -⟩ := h.reachable.inStep.exists_section_of_lookup hi
  rw [sectionAt_of_section hs]
  exact h.source_eq (List.mem_of_getElem? hs)

/-! ## Two runs -/

/-- A call to a monitor of the family notices changed surroundings and works only by the volume. -/
theorem perform_map (h : Family settings adapterEvents m) {f : Surroundings → Surroundings}
    {g : Work → Work} (hf : ∀ here, f here = { here with derive := (f here).derive })
    (hvolume : ∀ here counted work,
      m.intervalVolume (f here) (settings.source adapterEvents) counted (g work)
        = m.intervalVolume here (settings.source adapterEvents) counted work) (c : Call) :
    m.perform (c.map f g) = m.perform c := by
  cases c with
  | start here label =>
    rw [Call.map, hf]
    rfl
  | stop here label work =>
    refine congrArg (Outcome.map _) (m.stop_congr ?_ ?_ fun i hi counted ↦ ?_)
    · rw [hf]
    · rw [hf]
    · rw [h.source_sectionAt hi, hvolume]
  | resolve label => rfl
  | setProperties label requested => rfl
  | reset label => rfl
  | resetAll now => rfl

/-- The works that are stated do not matter if the measured program is not the source. -/
theorem perform_unweighed (h : Family settings adapterEvents m)
    (hsource : settings.source adapterEvents ≠ .userSupplied) (c : Call) :
    m.perform (c.map id fun _ ↦ {}) = m.perform c := by
  refine h.perform_map (fun here ↦ rfl) (fun here counted work ↦ ?_) c
  cases hresolved : settings.source adapterEvents with
  | userSupplied => exact absurd hresolved hsource
  | adapterDerived mode => rfl
  | timeOnly => rfl

/-- What the adapter would derive does not matter if the adapter is not the source. -/
theorem perform_underived (h : Family settings adapterEvents m)
    (hsource : ∀ mode, settings.source adapterEvents ≠ .adapterDerived mode) (c : Call) :
    m.perform (c.map Surroundings.underived id) = m.perform c := by
  refine h.perform_map (fun here ↦ rfl) (fun here counted work ↦ ?_) c
  cases hresolved : settings.source adapterEvents with
  | userSupplied => rfl
  | adapterDerived mode => exact absurd hresolved (hsource mode)
  | timeOnly => rfl

end Family

/-! ## Volumes of one sort -/

/-- All sections have volumes with a property. -/
def VolumesAre (P : Float → Prop) (m : Monitor) : Prop := ∀ s ∈ m.sections, P s.totals.volume

/-- A property that volumes keep if they begin with it and are added up. -/
structure KeptBySums (P : Float → Prop) : Prop where
  zero : P 0
  add {v w : Float} (hv : P v) (hw : P w) : P (v + w)

namespace VolumesAre

variable {P : Float → Prop}

theorem volume_sectionOf (h : m.VolumesAre P) (hP : KeptBySums P) (label : String) :
    P (m.sectionOf label).totals.volume := by
  obtain hnew | hmem := m.sectionOf_cases label
  · rw [hnew]
    exact hP.zero
  · exact h _ hmem

theorem keeps (h : m.VolumesAre P) (hP : KeptBySums P) (hkeeps : m.Keeps m') (hin : m.InStep)
    (hin' : m'.InStep) : m'.VolumesAre P := by
  intro s hs
  rw [hkeeps.totals_eq hin hin' hs]
  exact h.volume_sectionOf hP s.label

theorem modify (h : m.VolumesAre P) {k : ℕ} {f : Section → Section}
    (hsections : m'.sections = m.sections.modify k f)
    (hf : ∀ s, P s.totals.volume → P (f s).totals.volume) : m'.VolumesAre P := by
  intro s hs
  rw [hsections] at hs
  rcases mem_modify_cases hs with ⟨t, ht, rfl⟩ | ⟨j, -, ht⟩
  · exact hf t (h t (List.mem_of_getElem? ht))
  · exact h s (List.mem_of_getElem? ht)

/-- A call keeps the property if the interval that it may close has it. -/
theorem perform (h : m.VolumesAre P) (hP : KeptBySums P) (hin : m.InStep) (c : Call)
    (hvolume : ∀ here label work, c = .stop here label work →
      (m.stop here label work).result = .ok () → ∀ counted,
        P (m.intervalVolume here (m.sectionOf label).source counted work)) :
    (m.perform c).monitor.VolumesAre P := by
  have hstep := hin.callStep c
  have hin' := hin.perform c
  have hregister (label : String) : (m.register label).VolumesAre P :=
    h.keeps hP (.register m label) hin (hin.register label)
  generalize (m.perform c).monitor = m' at hstep hin'
  cases hstep with
  | nothing => exact h
  | register label => exact hregister label
  | @bind label requested k bound hs hbound =>
    exact h.keeps hP ((Keeps.register m label).trans (.bind hs hbound)) hin hin'
  | @openInterval here label =>
    exact (hregister label).modify (sections_openInterval ..) fun s hs ↦ hs
  | closeInterval _ _ _ hresult =>
    exact h.modify (sections_closeInterval ..) fun s hs ↦
      hP.add hs (hvolume _ _ _ rfl hresult _)
  | clear => exact h.modify (sections_modifySection ..) fun s hs ↦ hP.zero
  | restart => exact fun s hs ↦ absurd hs List.not_mem_nil

theorem volume_besides (hP : KeptBySums P) {t : Totals} (ht : P t.volume) {shares : List Totals}
    (hshares : ∀ u ∈ shares, P u.volume) : P (shares.foldl Totals.besides t).volume := by
  induction shares generalizing t with
  | nil => exact ht
  | cons u rest ih =>
    exact ih (hP.add ht (hshares u List.mem_cons_self)) fun v hv ↦
      hshares v (List.mem_cons_of_mem u hv)

/-- The shares of a region are added up. -/
theorem absorb (h : m.VolumesAre P) (hP : KeptBySums P) {shares : List Section}
    (hshares : ∀ s ∈ shares, P s.totals.volume) : (m.absorb shares).VolumesAre P := by
  intro s hs
  rw [sections_absorb, List.mem_map] at hs
  obtain ⟨t, ht, rfl⟩ := hs
  have hregion : P ((sharesOf shares t.label).foldl Totals.besides {}).volume := by
    refine volume_besides hP hP.zero fun u hu ↦ ?_
    obtain ⟨share, hshare, rfl⟩ := List.mem_map.mp hu
    exact hshares share (List.mem_of_mem_filter hshare)
  rw [Section.absorb]
  split
  · exact h t ht
  · exact hP.add (h t ht) hregion

theorem merge (h : m.VolumesAre P) (hP : KeptBySums P) (hin : m.InStep) {replicas : List Monitor}
    (hreplicas : ∀ r ∈ replicas, r.VolumesAre P) : (m.merge replicas).monitor.VolumesAre P := by
  obtain ⟨v, -, hleft⟩ | ⟨-, hkeeps, hm⟩ := hin.merge_cases replicas
  · generalize (m.merge replicas).monitor = m' at hleft
    cases hleft with
    | running hs => exact h
    | conflict hidle hshares hexplicit hrefused hkeeps =>
      exact h.keeps hP hkeeps hin ((hin.declareAll _).register _)
  · rw [hm]
    refine (h.keeps hP hkeeps hin (hin.declareAll _)).absorb hP fun s hs ↦ ?_
    obtain ⟨r, hr, hmem⟩ := List.mem_flatMap.mp hs
    exact hreplicas r hr s hmem

theorem gather (h : m.VolumesAre P) (hP : KeptBySums P) (hin : m.InStep) (now : Duration)
    (t : Transport) : (m.after (.gather now t)).VolumesAre P := by
  obtain hm | ⟨-, -, labels, hm⟩ := m.gather_cases now t
  · rwa [hm]
  · have hsealed : (m.sealed now).VolumesAre P := by
      rwa [VolumesAre, sections_sealed]
    have hall : ((m.sealed now).registerAll labels).1.VolumesAre P :=
      hsealed.keeps hP (.registerAll _ labels) (hin.sealed now)
        ((hin.sealed now).registerAll labels)
    rw [hm]
    exact hall

theorem build (settings : Settings) (adapterEvents : Option (List String)) (traced : Bool)
    (now : Duration) : (Monitor.build settings adapterEvents traced now).VolumesAre P := by
  intro s hs
  rw [sections_build] at hs
  exact absurd hs List.not_mem_nil

/-- A replica begins with nothing. -/
theorem replica (hP : KeptBySums P) (hin : m.InStep) (thread : ℕ) :
    (m.replica thread).VolumesAre P := by
  intro s hs
  rw [hin.replica_eq] at hs
  obtain ⟨parent, -, rfl⟩ := List.mem_map.mp hs
  exact hP.zero

end VolumesAre

/-- No section has a volume. -/
def Weightless (m : Monitor) : Prop := ∀ s ∈ m.sections, s.totals.volume = 0

/-- Nothing and nothing is nothing. -/
theorem keptBySums_eq_zero : KeptBySums (· = 0) where
  zero := rfl
  add hv hw := by
    rw [hv, hw]
    decide +kernel

/-- **Without a source there are no volumes.** -/
theorem Family.weightless (h : Family settings adapterEvents m)
    (hsource : settings.source adapterEvents = .timeOnly) : m.Weightless := by
  have hP := keptBySums_eq_zero
  suffices hvolumes : m.VolumesAre (· = 0) from hvolumes
  induction h with
  | build traced now => exact .build _ _ _ _
  | replica thread hm ih => exact .replica hP hm.reachable.inStep thread
  | @call m c hm ih =>
    refine ih.perform hP hm.reachable.inStep c fun here label work _ _ counted ↦ ?_
    rw [hm.reachable.oneSource.source_sectionOf, hm.newSource_eq, hsource]
    rfl
  | merge hm hreplicas ih ihReplicas => exact ih.merge hP hm.reachable.inStep ihReplicas
  | gather now t hm ih => exact ih.gather hP hm.reachable.inStep now t

end Monitor

open Monitor (Family)

/-- **Volumes come from exactly one source.** Every section of every monitor of a configuration has
the source that its volume mode and its adapter decide on. If volumes come from nowhere or from the
adapter, programs that differ only in the works that they state run in the same way, whatever
monitors of the family they begin with; so do programs that differ only in what the adapter would
derive, if volumes come from nowhere or from the program. If they come from nowhere all are zero. -/
theorem volumes_have_one_source (settings : Settings) (adapterEvents : Option (List String)) :
    (∀ m, Family settings adapterEvents m → ∀ s ∈ m.sections,
        s.source = .resolve settings.volumeMode (!(adapterEvents.getD []).isEmpty)) ∧
      (∀ (p : Program) ms, (∀ m ∈ ms, Family settings adapterEvents m) →
        ∀ m ∈ (p.run ms).2, Family settings adapterEvents m) ∧
      (settings.volumeMode = .timeOnly ∨
          (∃ mode, settings.volumeMode = .counters mode) ∧ adapterEvents.getD [] ≠ [] →
        ∀ (p q : Program) ms, (∀ m ∈ ms, Family settings adapterEvents m) →
          p.unweighed = q.unweighed → p.run ms = q.run ms) ∧
      (settings.volumeMode = .user ∨ settings.volumeMode = .timeOnly →
        ∀ (p q : Program) ms, (∀ m ∈ ms, Family settings adapterEvents m) →
          p.underived = q.underived → p.run ms = q.run ms) ∧
      (settings.volumeMode = .timeOnly →
        ∀ m, Family settings adapterEvents m → ∀ s ∈ m.sections, s.totals.volume = 0) := by
  have hresolved : settings.source adapterEvents
      = .resolve settings.volumeMode (!(adapterEvents.getD []).isEmpty) := rfl
  refine ⟨fun m hm s hs ↦ hm.source_eq hs, fun p ms h ↦ p.run_family h,
    fun hmode p q ms h hsame ↦ ?_, fun hmode p q ms h hsame ↦ ?_, fun hmode m hm ↦ ?_⟩
  · have hsource : settings.source adapterEvents ≠ .userSupplied := by
      rcases hmode with hmode | ⟨⟨mode, hmode⟩, hevents⟩
      · simp [hresolved, hmode, VolumeSource.resolve]
      · simp [hresolved, hmode, VolumeSource.resolve, hevents]
    have hrun (p : Program) : p.unweighed.run ms = p.run ms :=
      p.run_map (fun here ↦ rfl) (fun m hm ↦ hm.perform_unweighed hsource) h
    rw [← hrun p, hsame, hrun q]
  · have hsource (mode : CounterMode) : settings.source adapterEvents ≠ .adapterDerived mode := by
      rcases hmode with hmode | hmode <;> simp [hresolved, hmode, VolumeSource.resolve]
    have hteam (here : Surroundings) : here.underived.team = here.team := rfl
    have hrun (p : Program) : p.underived.run ms = p.run ms :=
      p.run_map hteam (fun m hm ↦ hm.perform_underived hsource) h
    rw [← hrun p, hsame, hrun q]
  · exact hm.weightless (by simp [hresolved, hmode, VolumeSource.resolve])

namespace Program

/-- A program that measures one interval and states its work. -/
def oneStop (work : Monitor.Work) : Program :=
  .call 0 (.start (.plain .zero) "kernel") fun _ ↦
    .call 0 (.stop (.plain .zero) "kernel" work) fun _ ↦ .done .finished

theorem unweighed_oneStop (work : Monitor.Work) : (oneStop work).unweighed = oneStop {} := rfl

/-- Where the program is the source, the works that it states do matter. -/
example :
    let volumes (work : Monitor.Work) :=
      ((oneStop work).run [.build {} none false .zero]).2.flatMap fun m ↦
        m.sections.map fun s ↦ s.totals.volume
    volumes ⟨1, 1⟩ = [1] ∧ volumes ⟨2, 1⟩ = [2] := by
  decide +kernel

/-- The program with an adapter that always derives the same volume. -/
def withDerived (p : Program) (volume : Float) : Program :=
  p.map (fun here ↦ { here with derive := fun _ _ ↦ volume }) id

theorem underived_withDerived (work : Monitor.Work) (volume : Float) :
    ((oneStop work).withDerived volume).underived = oneStop work := rfl

end Program

/-- Programs that state a work of one and a work of ten run in the same way if volumes come from nowhere
or from the adapter. If they come from nowhere, the section has been called and has no volume. If the
program is the source, it makes no difference whether the adapter would derive one or two. -/
theorem unasked_sources_unseen :
    let timeOnly : Settings := { volumeMode := .timeOnly }
    let counters : Settings := { volumeMode := .counters .flops }
    let small := Program.oneStop ⟨1, 1⟩
    let large := Program.oneStop ⟨2, 5⟩
    (((small.run [.build timeOnly none false .zero]).2.flatMap Monitor.sections).map fun s ↦
        s.totals.calls) = [1] ∧
      (∀ m ∈ (small.run [.build timeOnly none false .zero]).2, ∀ s ∈ m.sections,
        s.source = .timeOnly ∧ s.totals.volume = 0) ∧
      small.run [.build timeOnly none false .zero] = large.run [.build timeOnly none false .zero] ∧
      small.run [.build counters (some ["fma"]) false .zero]
        = large.run [.build counters (some ["fma"]) false .zero] ∧
      (small.withDerived 1).run [.build {} (some ["fma"]) false .zero]
        = (small.withDerived 2).run [.build {} (some ["fma"]) false .zero] := by
  intro timeOnly counters small large
  have hnew (settings : Settings) (adapterEvents : Option (List String)) :
      ∀ m ∈ [Monitor.build settings adapterEvents false .zero], Family settings adapterEvents m :=
    List.forall_mem_singleton.mpr (.build false .zero)
  have hworks : small.unweighed = large.unweighed :=
    (Program.unweighed_oneStop _).trans (Program.unweighed_oneStop _).symm
  have hvolumes : (small.withDerived 1).underived = (small.withDerived 2).underived :=
    (Program.underived_withDerived _ _).trans (Program.underived_withDerived _ _).symm
  obtain ⟨hsource, hfamily, hstated, -, hzero⟩ := volumes_have_one_source timeOnly none
  obtain ⟨-, -, hcounted, -, -⟩ := volumes_have_one_source counters (some ["fma"])
  obtain ⟨-, -, -, hderived, -⟩ := volumes_have_one_source {} (some ["fma"])
  refine ⟨by decide +kernel, fun m hm s hs ↦ ?volume, ?nothing, ?adapter, ?program⟩
  case volume =>
    have hrun := hfamily small _ (hnew timeOnly none) m hm
    exact ⟨hsource m hrun s hs, hzero rfl m hrun s hs⟩
  case nothing => exact hstated (.inl rfl) small large _ (hnew timeOnly none) hworks
  case adapter =>
    exact hcounted (.inr ⟨⟨.flops, rfl⟩, by decide⟩) small large _ (hnew counters _) hworks
  case program => exact hderived (.inl rfl) _ _ _ (hnew {} _) hvolumes

end SectionMonitor
