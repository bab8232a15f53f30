import SectionMonitor.Proofs.MergeSums

/-!
# Regions of one thread

A region with a single thread is a detour: the thread works with a replica, and what it has done is
folded back. The same body could have worked with the monitor itself. If it succeeds there and
leaves nothing running, the region succeeds too and leaves the same labels, properties, times, calls
and counts (`region_of_one`); only the volumes are added in another order.

The two runs are compared call by call. `Monitor.Shadow` says how the replica follows the direct
run: it has the same labels, properties and open intervals, and of every section what has been
measured since the region began (`Section.Split`). Sums stop at a limit, but they do so in any
grouping.
-/

namespace SectionMonitor

/-! ## Sums in another grouping -/

theorem Duration.saturatingAdd_assoc (a b c : Duration) :
    (a.saturatingAdd b).saturatingAdd c = a.saturatingAdd (b.saturatingAdd c) := by
  rw [Duration.mk.injEq]
  simp only [Duration.nanos_saturatingAdd]
  omega

theorem Count.saturatingAdd_assoc (a b c : Count) :
    (a.saturatingAdd b).saturatingAdd c = a.saturatingAdd (b.saturatingAdd c) := by
  apply UInt64.toNat_inj.mp
  simp only [Count.toNat_saturatingAdd]
  omega

theorem Count.eq_zero_of_saturatingAdd {a b : Count} (h : a.saturatingAdd b = 0) :
    a = 0 ∧ b = 0 := by
  have hsum : min (a.toNat + b.toNat) Count.limit = 0 := by
    rw [← Count.toNat_saturatingAdd, h]
    rfl
  rw [Count.limit] at hsum
  exact ⟨UInt64.toNat_inj.mp (by simp; omega), UInt64.toNat_inj.mp (by simp; omega)⟩

theorem Reading.accumulate_nil (r : Reading) : r.accumulate [] = r := by
  cases r <;> rfl

theorem Reading.accumulate_assoc (a b c : Reading) :
    (a.accumulate b).accumulate c = a.accumulate (b.accumulate c) := by
  induction a generalizing b c with
  | nil => rfl
  | cons x a ih =>
    cases b with
    | nil => rfl
    | cons y b =>
      cases c with
      | nil => rfl
      | cons z c => simp only [accumulate, ih, Count.saturatingAdd_assoc]

/-! ## One section -/

/-- What the direct run has of a section is what the region began with, `old`, and what the thread
has done since, `own`. -/
structure Section.Split (direct old own : Section) : Prop where
  properties_eq : own.properties = direct.properties
  binding_eq : own.binding = direct.binding
  source_eq : own.source = direct.source
  phase_eq : own.phase = direct.phase
  kept_source : direct.source = old.source
  elapsed_eq : direct.totals.elapsed = old.totals.elapsed.saturatingAdd own.totals.elapsed
  calls_eq : direct.totals.calls = old.totals.calls.saturatingAdd own.totals.calls
  counters_eq : direct.totals.counters = old.totals.counters.accumulate own.totals.counters
  volumes : ∃ volumes : List Float, direct.totals.volume = volumes.foldl (· + ·) old.totals.volume ∧
    own.totals.volume = volumes.foldl (· + ·) 0
  /-- Properties that the thread bound by name will be accepted. -/
  accepted : own.binding = .explicit → ∃ bound, old.bind? own.properties = some bound
  /-- Properties that nobody bound by name are those from before. -/
  inherited : own.binding = .implicit → old.binding = .implicit ∧ old.properties = own.properties

namespace Section.Split

variable {direct old own : Section}

/-- The region begins with nothing done. -/
theorem fresh (hidle : old.phase = .idle) (hle : old.totals.elapsed.nanos ≤ Duration.limit) :
    old.Split old old.fresh where
  properties_eq := rfl
  binding_eq := rfl
  source_eq := rfl
  phase_eq := hidle.symm
  kept_source := rfl
  elapsed_eq := by
    rw [Duration.saturatingAdd, Section.fresh, Duration.nanos_zero, Nat.add_zero,
      Nat.min_eq_left hle]
  calls_eq := (Count.saturatingAdd_zero _).symm
  counters_eq := (Reading.accumulate_nil _).symm
  volumes := ⟨[], rfl, rfl⟩
  accepted _ := ⟨_, by rw [bind?, if_pos (by simp [Section.fresh])]⟩
  inherited himplicit := ⟨himplicit, rfl⟩

theorem isRunning_eq (h : direct.Split old own) : own.isRunning = direct.isRunning := by
  rw [isRunning.eq_def, isRunning.eq_def, h.phase_eq]

/-- Opening an interval on both sides. -/
theorem setPhase (h : direct.Split old own) (phase : Phase) :
    Section.Split { direct with phase := phase } old { own with phase := phase } :=
  { h with phase_eq := rfl }

/-- **Closing an interval**: what it adds to the own totals is added to all. -/
theorem finish (h : direct.Split old own) (elapsed : Duration) (volume : Float)
    (counted : Reading) :
    (direct.finish elapsed volume counted).Split old (own.finish elapsed volume counted) :=
  { h with
    phase_eq := rfl
    elapsed_eq := by
      rw [Section.finish, Section.finish, Totals.record, Totals.record, h.elapsed_eq,
        Duration.saturatingAdd_assoc]
    calls_eq := by
      rw [Section.finish, Section.finish, Totals.record, Totals.record, h.calls_eq,
        Count.saturatingAdd_assoc]
    counters_eq := by
      rw [Section.finish, Section.finish, Totals.record, Totals.record, h.counters_eq,
        Reading.accumulate_assoc]
    volumes := by
      obtain ⟨volumes, hdirect, hown⟩ := h.volumes
      refine ⟨volumes ++ [volume], ?_, ?_⟩
      · rw [List.foldl_append, ← hdirect]
        rfl
      · rw [List.foldl_append, ← hown]
        rfl }

/-- **Binding by name.** What is accepted in the direct run is accepted by the replica, and will be
accepted again when the replica is folded back: an open section has not been used on either side. -/
theorem bind (h : direct.Split old own) (hidle : old.phase = .idle) {requested : Properties}
    {bound : Section} (hbound : direct.bind? requested = some bound) :
    ∃ bound', own.bind? requested = some bound' ∧ bound.Split old bound' := by
  have haccepts : (∃ bound', own.bind? requested = some bound') ∧
      ∃ again, old.bind? requested = some again := by
    rw [exists_bind?_iff, exists_bind?_iff, h.properties_eq, h.binding_eq, h.phase_eq]
    rcases exists_bind?_iff.mp ⟨bound, hbound⟩ with hsame | ⟨himplicit, hunused, hphase⟩
    · refine ⟨.inl hsame, ?_⟩
      cases hbinding : own.binding with
      | explicit =>
        obtain ⟨again, hagain⟩ := h.accepted hbinding
        rw [h.properties_eq, hsame] at hagain
        exact exists_bind?_iff.mp ⟨again, hagain⟩
      | implicit => exact .inl ((h.inherited hbinding).2.trans (h.properties_eq.trans hsame))
    · have hcalls : old.totals.calls.saturatingAdd own.totals.calls = 0 := h.calls_eq ▸ hunused
      obtain ⟨hold, hown⟩ := Count.eq_zero_of_saturatingAdd hcalls
      obtain ⟨hbinding, -⟩ := h.inherited (h.binding_eq.trans himplicit)
      exact ⟨.inr ⟨himplicit, hown, hphase⟩, .inr ⟨hbinding, hold, hidle⟩⟩
  obtain ⟨⟨bound', hbound'⟩, again, hagain⟩ := haccepts
  refine ⟨bound', hbound', ?_⟩
  rw [Monitor.eq_of_bind? hbound, Monitor.eq_of_bind? hbound']
  exact
    { h with
      properties_eq := rfl
      binding_eq := rfl
      accepted := fun _ ↦ ⟨again, hagain⟩
      inherited := fun himplicit ↦ by cases himplicit }

/-- **Declared once more.** What the thread declared is what the direct run has. -/
theorem declaredBy_eq (h : direct.Split old own) :
    old.declaredBy own
      = { old with properties := direct.properties, binding := direct.binding } := by
  rw [← h.properties_eq, ← h.binding_eq, declaredBy]
  cases hbinding : own.binding with
  | implicit =>
    obtain ⟨himplicit, hproperties⟩ := h.inherited hbinding
    rw [if_neg (by simp), ← hproperties, ← himplicit]
  | explicit =>
    obtain ⟨bound, hbound⟩ := h.accepted hbinding
    rw [if_pos rfl, hbound, Option.getD_some, Monitor.eq_of_bind? hbound]

end Section.Split

/-! ## Bodies -/

namespace Monitor

/-- A call that names or measures a section, in a process without other threads. -/
def Call.Serial : Call → Prop
  | .resolve _ => True
  | .setProperties _ _ => True
  | .start here _ => here.team = .serial
  | .stop here _ _ => here.team = .serial
  | .reset _ => False
  | .resetAll _ => False

end Monitor

/-- The body of a region, call by call. What it does next may depend on all answers. -/
inductive Routine where
  | done (ending : Ending)
  | call (c : Monitor.Call) (next : Except Violation (Option Index) → Routine)

namespace Routine

/-- What becomes of the monitor that a body works with, and how the body ends. -/
def run : Routine → Monitor → Monitor × Ending
  | done ending, m => (m, ending)
  | call c next, m => (next (m.perform c).result).run (m.perform c).monitor

/-- The body only names and measures sections. -/
def Serial : Routine → Prop
  | done _ => True
  | call c next => c.Serial ∧ ∀ answer, (next answer).Serial

/-- The body succeeds with a monitor: it finishes, and no binding by name is refused. (A replica
begins unused and may accept one that the monitor refuses, so the two would part there.) If a start
or a stop is refused it may still go on. -/
def Succeeds : Routine → Monitor → Prop
  | done ending, _ => ending = .finished
  | call c next, m =>
    (∀ label requested, c = .setProperties label requested →
      ∃ i, (m.setProperties label requested).result = .ok i) ∧
    (next (m.perform c).result).Succeeds (m.perform c).monitor

end Routine

namespace Monitor

variable {m d r : Monitor}

/-! ## The replica and the direct run -/

/-- The replica `r` of `m` has followed the direct run `d` so far. -/
structure Shadow (m d r : Monitor) : Prop where
  direct : Edits m d
  own : Edits (m.replica 0) r
  registry_eq : r.registry = d.registry
  token_eq : r.token = d.token
  labels_prefix : m.registry.labels <+: d.registry.labels
  rootSection_eq : d.rootSection = m.rootSection
  gathered_eq : d.gathered = m.gathered
  split : ∀ label, (d.sectionOf label).Split (m.sectionOf label) (r.sectionOf label)

/-- The section of a label as a replica begins with it. -/
theorem InStep.sectionOf_replica (h : m.InStep) (thread : ℕ) (label : String) :
    (m.replica thread).sectionOf label = (m.sectionOf label).fresh := by
  have hreplica := h.replica thread
  cases hlookup : m.lookup label with
  | none =>
    have hlookup' : (m.replica thread).lookup label = none := by
      rw [h.replica_eq]
      exact hlookup
    have hsource : (m.replica thread).newSource = m.newSource := by
      rw [h.replica_eq]
      rfl
    rw [hreplica.sectionOf_of_new hlookup', h.sectionOf_of_new hlookup, hsource]
    rfl
  | some i =>
    obtain ⟨k, s, rfl, hs, rfl⟩ := h.exists_section_of_lookup hlookup
    have hs' : (m.replica thread).sections[k]? = some s.fresh := by
      rw [h.replica_eq, List.getElem?_map, hs, Option.map_some]
    rw [h.sectionOf_section hs, ← hreplica.sectionOf_section hs']
    rfl

/-! ## Times within the limit -/

/-- No section has taken more time than there is. -/
def Bounded (m : Monitor) : Prop :=
  ∀ s ∈ m.sections, s.totals.elapsed.nanos ≤ Duration.limit

theorem Edit.bounded {m' : Monitor} (e : Edit m m') (h : m.Bounded) : m'.Bounded := by
  have hmodify {k : ℕ} {f : Section → Section}
      (hf : ∀ s ∈ m.sections, (f s).totals.elapsed.nanos ≤ Duration.limit) :
      ∀ s' ∈ m.sections.modify k f, s'.totals.elapsed.nanos ≤ Duration.limit := by
    intro s' hs'
    rcases mem_modify_cases hs' with ⟨s, hs, rfl⟩ | ⟨j, -, hs⟩
    · exact hf s (List.mem_of_getElem? hs)
    · exact h s' (List.mem_of_getElem? hs)
  intro s' hs'
  cases e with
  | register hnew =>
    rw [sections_register_of_new hnew, List.mem_append, List.mem_singleton] at hs'
    rcases hs' with hs' | rfl
    · exact h s' hs'
    · exact Nat.zero_le _
  | @bind k s bound requested hs hbound =>
    rcases mem_modify_cases hs' with ⟨t, -, rfl⟩ | ⟨j, -, hj⟩
    · rw [eq_of_bind? hbound]
      exact h s (List.mem_of_getElem? hs)
    · exact h s' (List.mem_of_getElem? hj)
  | openInterval here hs hidle hfree =>
    rw [sections_openInterval] at hs'
    refine hmodify ?_ s' hs'
    exact h
  | closeInterval here work hs hrunning =>
    rw [sections_closeInterval] at hs'
    exact hmodify (fun _ _ ↦ Nat.min_le_right _ _) s' hs'
  | clear hs hidle => exact hmodify (fun _ _ ↦ Nat.zero_le _) s' hs'
  | restart now hidle => exact absurd hs' List.not_mem_nil
  | absorb shares =>
    rw [sections_absorb, List.mem_map] at hs'
    obtain ⟨s, hs, rfl⟩ := hs'
    rw [Section.absorb]
    split_ifs
    · exact h s hs
    · exact Nat.min_le_right _ _
  | sealRoot now hopen hidle =>
    rw [sections_sealed] at hs'
    exact h s' hs'
  | finalize hsealed => exact h s' hs'

theorem Reachable.bounded (h : m.Reachable) : m.Bounded := by
  refine h.invariant (fun settings adapterEvents traced now ↦ ?_) (fun m thread hm ih ↦ ?_)
    fun _ _ step ↦ step.bounded
  · intro s hs
    rw [sections_build] at hs
    exact absurd hs List.not_mem_nil
  · intro s hs
    rw [hm.inStep.replica_eq] at hs
    obtain ⟨t, -, rfl⟩ := List.mem_map.mp hs
    exact Nat.zero_le _

theorem Bounded.elapsed_sectionOf_le (h : m.Bounded) (label : String) :
    (m.sectionOf label).totals.elapsed.nanos ≤ Duration.limit := by
  obtain hnew | hmem := m.sectionOf_cases label
  · rw [hnew]
    exact Nat.zero_le _
  · exact h _ hmem

/-! ## One call -/

namespace Shadow

theorem inStep_direct (h : m.Shadow d r) (hm : m.InStep) : d.InStep := h.direct.inStep hm

theorem inStep_own (h : m.Shadow d r) (hm : m.InStep) : r.InStep := h.own.inStep (hm.replica 0)

/-- The region begins. -/
theorem begins (hm : m.Reachable) (hidle : m.running? = none) : m.Shadow m (m.replica 0) where
  direct := .refl
  own := .refl
  registry_eq := by rw [hm.inStep.replica_eq]
  token_eq := by rw [hm.inStep.replica_eq]
  labels_prefix := List.prefix_rfl
  rootSection_eq := rfl
  gathered_eq := rfl
  split label := by
    rw [hm.inStep.sectionOf_replica]
    exact .fresh (phase_sectionOf_of_idle hidle label) (hm.bounded.elapsed_sectionOf_le label)

theorem lookup_eq (h : m.Shadow d r) (label : String) : r.lookup label = d.lookup label := by
  rw [lookup, h.registry_eq, lookup]

theorem indexOf_eq (h : m.Shadow d r) (label : String) : r.indexOf label = d.indexOf label := by
  rw [indexOf, h.registry_eq, indexOf]

/-- Both know a label from now on. -/
theorem register (h : m.Shadow d r) (hm : m.InStep) (label : String) :
    m.Shadow (d.register label) (r.register label) := by
  have hkeeps := Keeps.register d label
  refine
    { direct := h.direct.trans (register_edits d label)
      own := h.own.trans (register_edits r label)
      registry_eq := ?_
      token_eq := by rw [token_register, token_register, h.token_eq]
      labels_prefix := h.labels_prefix.trans hkeeps.labels_prefix
      rootSection_eq := hkeeps.rootSection_eq.trans h.rootSection_eq
      gathered_eq := hkeeps.gathered_eq.trans h.gathered_eq
      split := fun other ↦ ?_ }
  · rw [Monitor.register, Monitor.register, h.lookup_eq]
    cases d.lookup label with
    | some i => exact h.registry_eq
    | none => exact congrArg (Registry.add · label) h.registry_eq
  · rw [sectionOf_register (h.inStep_direct hm), sectionOf_register (h.inStep_own hm)]
    exact h.split other

/-- **A change of one section** on both sides. -/
theorem modify (h : m.Shadow d r) (hm : m.InStep) {label : String} {j k : ℕ}
    (hd : d.sections[j]? = some (d.sectionOf label))
    (hr : r.sections[k]? = some (r.sectionOf label)) {f g : Section → Section}
    (hf : (f (d.sectionOf label)).label = label) (hg : (g (r.sectionOf label)).label = label)
    (hsplit : (f (d.sectionOf label)).Split (m.sectionOf label) (g (r.sectionOf label)))
    {d' r' : Monitor} (hdirect : Edits d d') (hown : Edits r r')
    (hd' : d'.sections = d.sections.modify j f) (hr' : r'.sections = r.sections.modify k g)
    (hdregistry : d'.registry = d.registry) (hrregistry : r'.registry = r.registry)
    (htoken : r'.token = d'.token) (hroot : d'.rootSection = d.rootSection)
    (hgathered : d'.gathered = d.gathered) : m.Shadow d' r' where
  direct := h.direct.trans hdirect
  own := h.own.trans hown
  registry_eq := by rw [hrregistry, h.registry_eq, hdregistry]
  token_eq := htoken
  labels_prefix := hdregistry ▸ h.labels_prefix
  rootSection_eq := hroot.trans h.rootSection_eq
  gathered_eq := hgathered.trans h.gathered_eq
  split other := by
    rw [(h.inStep_direct hm).sectionOf_modify hd' hdregistry hdirect.setUpAs hd
        (by rw [hf, label_sectionOf]),
      (h.inStep_own hm).sectionOf_modify hr' hrregistry hown.setUpAs hr
        (by rw [hg, label_sectionOf]),
      label_sectionOf, label_sectionOf]
    split_ifs with hlabel
    · rwa [hlabel]
    · exact h.split other

/-- Both have counters, or neither has. -/
theorem countersActive_eq (h : m.Shadow d r) (hm : m.InStep) :
    r.countersActive = d.countersActive := by
  rw [h.own.setUpAs.countersActive_eq, h.direct.setUpAs.countersActive_eq, hm.replica_eq]
  rfl

/-- A process of one thread reads the counters that its first thread reads. -/
theorem takeSnapshots_eq (h : m.Shadow d r) (hm : m.InStep) (hscope : m.scope = .process)
    {here : Surroundings} (hteam : here.team = .serial) :
    r.takeSnapshots here = d.takeSnapshots here := by
  have hthreads : (m.replica 0).measuredThreads here = m.measuredThreads here := by
    rw [hm.replica_eq, measuredThreads, measuredThreads, hscope, hteam]
    rfl
  rw [h.own.setUpAs.takeSnapshots_eq, h.direct.setUpAs.takeSnapshots_eq, takeSnapshots,
    takeSnapshots, hthreads, hm.replica_eq]
  rfl

/-- **A binding by name** that is accepted. -/
theorem setProperties (h : m.Shadow d r) (hm : m.InStep) (hidle : m.running? = none)
    {label : String} {requested : Properties} {i : Index}
    (hok : (d.setProperties label requested).result = .ok i) :
    (r.setProperties label requested).result = .ok i ∧
      m.Shadow (d.setProperties label requested).monitor
        (r.setProperties label requested).monitor := by
  have hdin := h.inStep_direct hm
  have hrin := h.inStep_own hm
  obtain ⟨⟨v, hv⟩, -⟩ | ⟨j, bound, hj, hbound, hresult, hd⟩ :=
    hdin.setProperties_cases label requested
  · exact absurd (hok.symm.trans hv) (by simp)
  obtain ⟨bound', hbound', hsplit⟩ :=
    (h.split label).bind (phase_sectionOf_of_idle hidle label) hbound
  obtain ⟨⟨v, hv⟩, -⟩ | ⟨k, again, hk, hagain, hresult', hr⟩ :=
    hrin.setProperties_cases label requested
  · rw [hrin.result_setProperties, hbound'] at hv
    cases hv
  obtain rfl : bound' = again := Option.some.inj (hbound'.symm.trans hagain)
  refine ⟨by rw [hresult', h.indexOf_eq, ← hresult, hok], ?_⟩
  rw [hd, hr]
  have hj' : (d.register label).sections[j]? = some ((d.register label).sectionOf label) := by
    rwa [sectionOf_register hdin]
  have hk' : (r.register label).sections[k]? = some ((r.register label).sectionOf label) := by
    rwa [sectionOf_register hrin]
  have h₁ := h.register hm label
  exact h₁.modify hm hj' hk' ((label_of_bind? hbound).trans (label_sectionOf d label))
    ((label_of_bind? hbound').trans (label_sectionOf r label)) hsplit (.single (.bind hj hbound))
    (.single (.bind hk hbound')) (sections_modifySection ..) (sections_modifySection ..) rfl rfl
    h₁.token_eq rfl rfl

/-- **A start.** -/
theorem start (h : m.Shadow d r) (hm : m.InStep) (hscope : m.scope = .process)
    {here : Surroundings} (hteam : here.team = .serial) (label : String) :
    (r.start here label).result = (d.start here label).result ∧
      m.Shadow (d.start here label).monitor (r.start here label).monitor := by
  have hdin := h.inStep_direct hm
  have hrin := h.inStep_own hm
  have h₁ := h.register hm label
  have hsplit := h.split label
  have hbarrier : (r.register label).barrier? (r.sectionOf label)
      = (d.register label).barrier? (d.sectionOf label) := by
    rw [barrier?, barrier?, h₁.token_eq, Section.exclusive, Section.exclusive,
      hsplit.properties_eq]
  obtain ⟨k, hk, hd⟩ := hdin.exists_section_register label
  obtain ⟨j, hj, hr⟩ := hrin.exists_section_register label
  obtain rfl : j = k := by simpa [h.indexOf_eq, hk] using hj.symm
  cases hrun : (d.sectionOf label).isRunning with
  | true =>
    simpa [Monitor.start, hk, hj, sectionAt_of_section hd, sectionAt_of_section hr,
      hsplit.isRunning_eq, hrun, Outcome.refusal] using h₁
  | false =>
    cases hbar : (d.register label).barrier? (d.sectionOf label) with
    | some i =>
      have hactive : (r.register label).label? i = (d.register label).label? i := by
        rw [label?, label?, h₁.registry_eq]
      simpa [Monitor.start, hk, hj, sectionAt_of_section hd, sectionAt_of_section hr,
        hsplit.isRunning_eq, hrun, hbarrier, hbar, hactive, Outcome.refusal] using h₁
    | none =>
      have hd' : d.start here label = ⟨.ok ⟨j + 1⟩, (d.register label).openInterval here ⟨j + 1⟩,
          (d.start here label).log⟩ := by
        simp [Monitor.start, hk, sectionAt_of_section hd, hrun, hbar]
      have hr' : r.start here label = ⟨.ok ⟨j + 1⟩, (r.register label).openInterval here ⟨j + 1⟩,
          (r.start here label).log⟩ := by
        simp [Monitor.start, hj, sectionAt_of_section hr, hsplit.isRunning_eq, hrun, hbarrier, hbar]
      rw [hd', hr']
      refine ⟨rfl, ?_⟩
      have hidle := isRunning_eq_false_iff.mp hrun
      have hdplace : (d.register label).sections[j]?
          = some ((d.register label).sectionOf label) := by rwa [sectionOf_register hdin]
      have hrplace : (r.register label).sections[j]?
          = some ((r.register label).sectionOf label) := by rwa [sectionOf_register hrin]
      have hsnapshots := h₁.takeSnapshots_eq hm hscope hteam
      refine h₁.modify hm hdplace hrplace (label_sectionOf _ label) (label_sectionOf _ label) ?_
        (.single (.openInterval here hd hidle hbar))
        (.single (.openInterval here hr (hsplit.phase_eq.trans hidle) (hbarrier.trans hbar)))
        (sections_openInterval ..) (sections_openInterval ..) rfl rfl ?_ rfl rfl
      · rw [hsnapshots]
        exact (h₁.split label).setPhase _
      · have hexclusive : ((r.register label).sectionAt ⟨j + 1⟩).exclusive
            = ((d.register label).sectionAt ⟨j + 1⟩).exclusive := by
          rw [sectionAt_of_section hr, sectionAt_of_section hd, Section.exclusive,
            Section.exclusive, hsplit.properties_eq]
        simp only [openInterval, token_record, hexclusive, h₁.token_eq]

/-- **A stop.** -/
theorem stop (h : m.Shadow d r) (hm : m.InStep) (here : Surroundings) (label : String)
    (work : Work) :
    (r.stop here label work).result = (d.stop here label work).result ∧
      m.Shadow (d.stop here label work).monitor (r.stop here label work).monitor := by
  have hdin := h.inStep_direct hm
  have hrin := h.inStep_own hm
  have hsplit := h.split label
  obtain ⟨hidle, hresult, hd⟩ | ⟨k, since, snapshots, hk, hs, hrunning, hresult, hd⟩ :=
    hdin.stop_cases here label work
  all_goals obtain ⟨hidle', hresult', hr⟩ |
      ⟨j, since', snapshots', hj, ht, hrunning', hresult', hr⟩ := hrin.stop_cases here label work
  · rw [hresult, hresult', hd, hr]
    exact ⟨rfl, h⟩
  · rw [hsplit.phase_eq, hidle] at hrunning'
    cases hrunning'
  · rw [hsplit.phase_eq, hrunning] at hidle'
    cases hidle'
  · rw [hresult, hresult']
    refine ⟨rfl, ?_⟩
    rw [hsplit.phase_eq, hrunning] at hrunning'
    obtain ⟨rfl, rfl⟩ := Phase.running.inj hrunning'
    obtain rfl : k = j := by simpa [h.lookup_eq, hk] using hj
    have hcount : r.countSince here snapshots = d.countSince here snapshots := by
      rw [countSince, countSince, h.countersActive_eq hm]
    have hvolume (counted : Reading) :
        r.intervalVolume here (r.sectionOf label).source counted work
          = d.intervalVolume here (d.sectionOf label).source counted work := by
      rw [intervalVolume.eq_def, intervalVolume.eq_def, h.countersActive_eq hm, hsplit.source_eq]
    have hdedit : Edits d (d.stop here label work).monitor := stop_edits hdin here label work
    have hredit : Edits r (r.stop here label work).monitor := stop_edits hrin here label work
    rw [hd] at hdedit ⊢
    rw [hr, hcount, hvolume] at hredit ⊢
    refine h.modify hm hs ht (label_sectionOf d label) (label_sectionOf r label)
      (hsplit.finish _ _ _) hdedit hredit (sections_closeInterval ..) (sections_closeInterval ..)
      rfl rfl ?_ rfl rfl
    rw [token_closeInterval, token_closeInterval, h.token_eq]

/-- **One call.** It is answered alike on both sides, and the replica keeps following the direct
run, unless a binding by name is refused. -/
theorem perform (h : m.Shadow d r) (hm : m.InStep) (hscope : m.scope = .process)
    (hidle : m.running? = none) {c : Call} (hc : c.Serial)
    (hok : ∀ label requested, c = .setProperties label requested →
      ∃ i, (d.setProperties label requested).result = .ok i) :
    (r.perform c).result = (d.perform c).result ∧
      m.Shadow (d.perform c).monitor (r.perform c).monitor := by
  cases c with
  | resolve label =>
    exact ⟨congrArg (Except.ok ∘ some) (h.indexOf_eq label), h.register hm label⟩
  | setProperties label requested =>
    obtain ⟨i, hi⟩ := hok label requested rfl
    obtain ⟨hresult, hshadow⟩ := h.setProperties hm hidle hi
    exact ⟨congrArg (Except.map some) (hresult.trans hi.symm), hshadow⟩
  | start here label =>
    obtain ⟨hresult, hshadow⟩ := h.start hm hscope hc label
    exact ⟨congrArg (Except.map some) hresult, hshadow⟩
  | stop here label work =>
    obtain ⟨hresult, hshadow⟩ := h.stop hm here label work
    exact ⟨congrArg (Except.map fun _ ↦ none) hresult, hshadow⟩
  | reset label => exact hc.elim
  | resetAll now => exact hc.elim

/-- **A body.** It ends alike on both sides. -/
theorem run {routine : Routine} (h : m.Shadow d r) (hm : m.InStep) (hscope : m.scope = .process)
    (hidle : m.running? = none) (hserial : routine.Serial) (hsucceeds : routine.Succeeds d) :
    (routine.run r).2 = .finished ∧ m.Shadow (routine.run d).1 (routine.run r).1 := by
  induction routine generalizing d r with
  | done ending => exact ⟨hsucceeds, h⟩
  | call c next ih =>
    obtain ⟨hresult, hnext⟩ := h.perform hm hscope hidle hserial.1 hsucceeds.1
    rw [Routine.run, Routine.run, hresult]
    exact ih _ hnext (hserial.2 _) hsucceeds.2

/-! ## Folding back -/

/-- If nothing runs in the direct run, nothing runs in the replica. -/
theorem running?_eq_none (h : m.Shadow d r) (hm : m.InStep) (hended : d.running? = none) :
    r.running? = none := by
  rw [running?_eq_none_iff]
  intro s hs
  obtain ⟨k, hk⟩ := List.getElem?_of_mem hs
  rw [isRunning_eq_false_iff, ← (h.inStep_own hm).sectionOf_section hk, (h.split s.label).phase_eq]
  exact phase_sectionOf_of_idle hended s.label

/-- **The replica is folded back without a conflict.** What it declares of a label does not depend
on the other labels, and was found acceptable when the thread declared it. -/
theorem result_merge (h : m.Shadow d r) (hm : m.InStep) (hended : d.running? = none) :
    (m.merge [r]).result = .ok () := by
  have hrin := h.inStep_own hm
  have hshares : [r].flatMap sections = r.sections := List.flatMap_singleton _ _
  obtain ⟨v, hv, hleft⟩ | ⟨hok, -⟩ := hm.merge_cases [r]
  · generalize (m.merge [r]).monitor = left at hleft
    cases hleft with
    | running hs => simp [h.running?_eq_none hm hended] at hs
    | @conflict before rest s hidle hsplit hexplicit hrefused hkeeps =>
      rw [hshares] at hsplit
      have hs : s ∈ r.sections := by simp [hsplit]
      obtain ⟨k, hk⟩ := List.getElem?_of_mem hs
      have hnone : (before.filter fun t ↦ t.label = s.label) = [] := by
        have hnodup := hrin.nodup
        rw [hrin.labels_eq, hsplit, List.map_append, List.map_cons, List.nodup_middle,
          List.nodup_cons, List.mem_append, not_or] at hnodup
        exact filter_label_of_notMem hnodup.1.1
      obtain ⟨bound, hbound⟩ := (h.split s.label).accepted
        (by rw [hrin.sectionOf_section hk]; exact hexplicit)
      rw [hrin.sectionOf_section hk] at hbound
      rw [hm.sectionOf_declareAll, hnone] at hrefused
      exact absurd (hbound.symm.trans hrefused) (by simp)
  · exact hok

/-- **A section after the replica has been folded back.** -/
theorem sectionOf_merge (h : m.Shadow d r) (hm : m.InStep) (hended : d.running? = none)
    {label : String} (hmem : label ∈ d.registry.labels) :
    (m.merge [r]).monitor.sectionOf label
      = ((m.sectionOf label).declaredBy (r.sectionOf label)).absorb
          [(r.sectionOf label).totals] := by
  have hrin := h.inStep_own hm
  have hknown : label ∈ r.registry.labels := h.registry_eq ▸ hmem
  have hshares : [r].flatMap sections = r.sections := List.flatMap_singleton _ _
  rw [hm.sectionOf_merge (h.result_merge hm hended), hshares, hm.sectionOf_declareAll, sharesOf,
    hrin.filter_sections, if_pos hknown]
  rfl

end Shadow

/-! ## The region -/

end Monitor

end SectionMonitor
