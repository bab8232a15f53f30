import SectionMonitor.Proofs.Replica

/-!
# Merges that are refused

A merge first looks for sections that still run, and only then goes through the sections of the
replicas one by one: it makes their labels known, and takes over the properties that were bound by
name. What the replicas measured is added last, when nothing can go wrong any more.

A merge that is refused has therefore added nothing, but it is not without a trace. If properties
are in conflict, everything before the conflict has been declared, exactly as by one call for each
section (`Section.declaration`). `Abandoned` says what is left, and `Keeps` what declarations leave
alone: everything but the properties of sections that may still be bound.
-/

namespace SectionMonitor

/-- The call that declares a section: its label, and its properties if they were bound by name. -/
def Section.declaration (s : Section) : Monitor.Call :=
  if s.binding = .explicit then .setProperties s.label s.properties else .resolve s.label

namespace Monitor

variable {m m' m'' : Monitor}

/-- The monitor after sections are declared one by one. -/
def declareAll (m : Monitor) (shares : List Section) : Monitor :=
  m.run (shares.map fun s ↦ .call s.declaration)

theorem InStep.perform (h : m.InStep) (c : Call) : (m.perform c).monitor.InStep :=
  (perform_edits h c).inStep h

theorem InStep.declareAll (h : m.InStep) (shares : List Section) : (m.declareAll shares).InStep :=
  (run_edits h _).inStep h

theorem perform_declaration_of_implicit {s : Section} (hs : s.binding ≠ .explicit) :
    (m.perform s.declaration).monitor = m.register s.label := by
  rw [Section.declaration, if_neg hs]
  rfl

theorem perform_declaration_of_explicit {s : Section} (hs : s.binding = .explicit) :
    (m.perform s.declaration).monitor = (m.setProperties s.label s.properties).monitor := by
  rw [Section.declaration, if_pos hs]
  rfl

/-! ## What declarations leave alone -/

/-- Nothing is changed but the properties of sections that may still be bound, and nothing is added
but sections without measurements. -/
structure Keeps (m m' : Monitor) : Prop where
  settings_eq : m'.settings = m.settings
  events_eq : m'.events = m.events
  scope_eq : m'.scope = m.scope
  rootSection_eq : m'.rootSection = m.rootSection
  token_eq : m'.token = m.token
  gathered_eq : m'.gathered = m.gathered
  labels_prefix : m.registry.labels <+: m'.registry.labels
  /-- A section is the same as before, or it was open to being bound by name and has been bound. -/
  section_kept : ∀ (k : ℕ) (s : Section), m.sections[k]? = some s →
    ∃ s', m'.sections[k]? = some s' ∧ (s' = s ∨ s.bind? s'.properties = some s')
  section_new : ∀ (k : ℕ) (s' : Section), m.sections[k]? = none → m'.sections[k]? = some s' →
    s'.totals = {} ∧ s'.phase = .idle

namespace Keeps

theorem refl (m : Monitor) : m.Keeps m where
  settings_eq := rfl
  events_eq := rfl
  scope_eq := rfl
  rootSection_eq := rfl
  token_eq := rfl
  gathered_eq := rfl
  labels_prefix := List.prefix_rfl
  section_kept k s hs := ⟨s, hs, .inl rfl⟩
  section_new k s' hnone hs' := absurd (hnone.symm.trans hs') (by simp)

/-- A section that was bound by name stays as it is, so binding it twice is binding it once. -/
theorem trans (h : m.Keeps m') (h' : m'.Keeps m'') : m.Keeps m'' where
  settings_eq := h'.settings_eq.trans h.settings_eq
  events_eq := h'.events_eq.trans h.events_eq
  scope_eq := h'.scope_eq.trans h.scope_eq
  rootSection_eq := h'.rootSection_eq.trans h.rootSection_eq
  token_eq := h'.token_eq.trans h.token_eq
  gathered_eq := h'.gathered_eq.trans h.gathered_eq
  labels_prefix := h.labels_prefix.trans h'.labels_prefix
  section_kept k s hs := by
    obtain ⟨s', hs', hkept⟩ := h.section_kept k s hs
    obtain ⟨s'', hs'', hkept'⟩ := h'.section_kept k s' hs'
    refine ⟨s'', hs'', ?_⟩
    rcases hkept with rfl | hbound
    · exact hkept'
    · rcases hkept' with rfl | hbound'
      · exact .inr hbound
      · have hexplicit : s'.binding = .explicit := by rw [eq_of_bind? hbound]
        rw [eq_of_bind?_of_explicit hbound' hexplicit]
        exact .inr hbound
  section_new k s'' hnone hs'' := by
    cases hs' : m'.sections[k]? with
    | none => exact h'.section_new k s'' hs' hs''
    | some s' =>
      obtain ⟨t, ht, hkept⟩ := h'.section_kept k s' hs'
      obtain rfl : t = s'' := Option.some.inj (ht.symm.trans hs'')
      obtain ⟨htotals, hphase⟩ := h.section_new k s' hnone hs'
      rcases hkept with rfl | hbound
      · exact ⟨htotals, hphase⟩
      · rw [eq_of_bind? hbound]
        exact ⟨htotals, hphase⟩

theorem register (m : Monitor) (label : String) : m.Keeps (m.register label) := by
  cases hlookup : m.lookup label with
  | some i =>
    rw [register_of_known hlookup]
    exact refl m
  | none =>
    have hsections := sections_register_of_new hlookup
    refine
      { settings_eq := by rw [register_of_new hlookup]; rfl
        events_eq := by rw [register_of_new hlookup]; rfl
        scope_eq := by rw [register_of_new hlookup]; rfl
        rootSection_eq := by rw [register_of_new hlookup]; rfl
        token_eq := token_register m label
        gathered_eq := gathered_register m label
        labels_prefix := ⟨[label], (labels_register_of_new hlookup).symm⟩
        section_kept := fun k s hs ↦ ⟨s, ?_, .inl rfl⟩
        section_new := fun k s' hnone hs' ↦ ?_ }
    · obtain ⟨hlt, -⟩ := List.getElem?_eq_some_iff.mp hs
      rw [hsections, List.getElem?_append_left hlt, hs]
    · rw [hsections, List.getElem?_append_right (List.getElem?_eq_none_iff.mp hnone)] at hs'
      obtain rfl := List.mem_singleton.mp (List.mem_of_getElem? hs')
      exact ⟨rfl, rfl⟩

theorem registerAll (m : Monitor) (labels : List String) : m.Keeps (m.registerAll labels).1 := by
  induction labels generalizing m with
  | nil => exact refl m
  | cons label rest ih => exact (register m label).trans (ih _)

theorem bind {k : ℕ} {s bound : Section} {requested : Properties}
    (hs : m.sections[k]? = some s) (hbound : s.bind? requested = some bound) :
    m.Keeps (m.modifySection ⟨k + 1⟩ fun _ ↦ bound) where
  settings_eq := rfl
  events_eq := rfl
  scope_eq := rfl
  rootSection_eq := rfl
  token_eq := rfl
  gathered_eq := rfl
  labels_prefix := List.prefix_rfl
  section_kept j t ht := by
    by_cases hj : k = j
    · subst hj
      obtain rfl : s = t := Option.some.inj (hs.symm.trans ht)
      have hproperties : bound.properties = requested := by rw [eq_of_bind? hbound]
      exact ⟨bound, by simp [hs], .inr (by rw [hproperties, hbound])⟩
    · exact ⟨t, by simp [hj, ht], .inl rfl⟩
  section_new j s' hnone hs' := by
    by_cases hj : k = j
    · subst hj
      exact absurd (hnone.symm.trans hs) (by simp)
    · simp [hj, hnone] at hs'

/-- No totals are changed, and what is added has none. -/
theorem totals_eq (hkeeps : m.Keeps m') (h : m.InStep) (h' : m'.InStep) {s : Section}
    (hs : s ∈ m'.sections) : s.totals = (m.sectionOf s.label).totals := by
  obtain ⟨k, hk⟩ := List.getElem?_of_mem hs
  rcases hold : m.sections[k]? with _ | t
  · have hnew : m.lookup s.label = none := by
      rw [Option.eq_none_iff_forall_ne_some]
      intro i hi
      obtain ⟨j, t, -, hj, hlabel⟩ := h.exists_section_of_lookup hi
      obtain ⟨t', ht', hkept⟩ := hkeeps.section_kept j t hj
      have hlabel' : t'.label = t.label := by
        rcases hkept with rfl | hbound
        · rfl
        · exact label_of_bind? hbound
      obtain rfl : j = k := h'.place_unique ht' hk (hlabel'.trans hlabel)
      exact absurd (hold.symm.trans hj) (by simp)
    rw [h.sectionOf_of_new hnew, (hkeeps.section_new k s hold hk).1]
  · obtain ⟨s', hs', hkept⟩ := hkeeps.section_kept k t hold
    obtain rfl : s = s' := Option.some.inj (hk.symm.trans hs')
    rcases hkept with rfl | hbound
    · rw [h.sectionOf_section hold]
    · rw [label_of_bind? hbound, h.sectionOf_section hold, eq_of_bind? hbound]

end Keeps

/-- The section with the label was bound by name to the properties. -/
def BoundAs (m : Monitor) (label : String) (properties : Properties) : Prop :=
  ∃ (k : ℕ) (s : Section), m.sections[k]? = some s ∧ s.label = label ∧ s.binding = .explicit ∧
    s.properties = properties

/-- What was bound by name stays as it is. -/
theorem BoundAs.of_keeps {label : String} {properties : Properties} (h : m.BoundAs label properties)
    (hkeeps : m.Keeps m') : m'.BoundAs label properties := by
  obtain ⟨k, s, hs, hlabel, hbinding, hproperties⟩ := h
  obtain ⟨s', hs', hkept⟩ := hkeeps.section_kept k s hs
  have heq : s' = s := by
    rcases hkept with rfl | hbound
    · rfl
    · exact eq_of_bind?_of_explicit hbound hbinding
  exact ⟨k, s', hs', heq ▸ hlabel, heq ▸ hbinding, heq ▸ hproperties⟩

/-! ## Going through the sections of replicas -/

/-- **What is made of the first section.** Either its properties are refused, and only its label
has been made known, or it is declared, with its properties if they were bound by name. Whatever
other sections there are, they are looked at in the second case only. -/
theorem InStep.reconcile_cons_cases (h : m.InStep) (s : Section) :
    (s.binding = .explicit ∧ (m.sectionOf s.label).bind? s.properties = none ∧
        ∀ rest,
          (m.reconcile (s :: rest)).result
            = .error
              (.conflictingProperties s.label (m.sectionOf s.label).properties s.properties) ∧
          (m.reconcile (s :: rest)).monitor = m.register s.label) ∨
      (m.Keeps (m.perform s.declaration).monitor ∧
        (s.binding = .explicit →
          (m.perform s.declaration).monitor.BoundAs s.label s.properties) ∧
        ∀ rest,
          (m.reconcile (s :: rest)).result
            = ((m.perform s.declaration).monitor.reconcile rest).result ∧
          (m.reconcile (s :: rest)).monitor
            = ((m.perform s.declaration).monitor.reconcile rest).monitor) := by
  by_cases hexplicit : s.binding = .explicit
  · obtain ⟨k, hk, hs⟩ := h.exists_section_register s.label
    have hsection : (m.register s.label).sectionAt ⟨k + 1⟩ = m.sectionOf s.label :=
      sectionAt_of_section hs
    cases hbound : (m.sectionOf s.label).bind? s.properties with
    | none =>
      have hbind : (m.register s.label).bind ⟨k + 1⟩ s.properties
          = .error (.conflictingProperties s.label (m.sectionOf s.label).properties
              s.properties) := by simp [Monitor.bind, hsection, hbound]
      refine .inl ⟨hexplicit, rfl, fun rest ↦ ?_⟩
      rw [reconcile, if_pos hexplicit, hk, hbind]
      exact ⟨rfl, rfl⟩
    | some bound =>
      have hbind : (m.register s.label).bind ⟨k + 1⟩ s.properties
          = .ok ((m.register s.label).modifySection ⟨k + 1⟩ fun _ ↦ bound) := by
        simp [Monitor.bind, hsection, hbound]
      have hdeclared : (m.perform s.declaration).monitor
          = (m.register s.label).modifySection ⟨k + 1⟩ fun _ ↦ bound := by
        rw [perform_declaration_of_explicit hexplicit, setProperties, hk, hbind]
        rfl
      have hplace : ((m.register s.label).modifySection ⟨k + 1⟩ fun _ ↦ bound).sections[k]?
          = some bound := by simp [hs]
      right
      rw [hdeclared]
      refine ⟨(Keeps.register m s.label).trans (.bind hs hbound), fun _ ↦ ?_, fun rest ↦ ?_⟩
      · exact ⟨k, bound, hplace, by rw [label_of_bind? hbound, label_sectionOf],
          by rw [eq_of_bind? hbound], by rw [eq_of_bind? hbound]⟩
      · rw [reconcile, if_pos hexplicit, hk, hbind]
        exact ⟨rfl, rfl⟩
  · right
    rw [perform_declaration_of_implicit hexplicit]
    refine ⟨.register m s.label, fun h ↦ absurd h hexplicit, fun rest ↦ ?_⟩
    rw [reconcile, if_neg hexplicit]
    exact ⟨rfl, rfl⟩

/-- **What is made of the sections of replicas.** All of them are declared, or the first one whose
properties are refused ends it. -/
theorem InStep.reconcile_cases (h : m.InStep) (shares : List Section) :
    ((m.reconcile shares).result = .ok () ∧
        (m.reconcile shares).monitor = m.declareAll shares ∧ m.Keeps (m.declareAll shares)) ∨
      ∃ before s rest, shares = before ++ s :: rest ∧ s.binding = .explicit ∧
        ((m.declareAll before).sectionOf s.label).bind? s.properties = none ∧
        (m.reconcile shares).result
          = .error (.conflictingProperties s.label
              ((m.declareAll before).sectionOf s.label).properties s.properties) ∧
        (m.reconcile shares).monitor = (m.declareAll before).register s.label ∧
        m.Keeps (m.declareAll before) := by
  induction shares generalizing m with
  | nil => exact .inl ⟨rfl, rfl, .refl m⟩
  | cons s rest ih =>
    obtain ⟨hexplicit, hrefused, hend⟩ | ⟨hkeeps, -, hnext⟩ := h.reconcile_cons_cases s
    · obtain ⟨herror, hm⟩ := hend rest
      exact .inr ⟨[], s, rest, rfl, hexplicit, hrefused, herror, hm, .refl m⟩
    · rw [(hnext rest).1, (hnext rest).2]
      obtain ⟨hok, hm, hall⟩ | ⟨before, t, later, rfl, hexplicit, hrefused, herror, hm, hbefore⟩ :=
        ih (h.perform s.declaration)
      · exact .inl ⟨hok, hm, hkeeps.trans hall⟩
      · exact .inr ⟨s :: before, t, later, rfl, hexplicit, hrefused, herror, hm,
          hkeeps.trans hbefore⟩

/-- If nothing is refused all bindings by name are taken over. -/
theorem InStep.boundAs_declareAll (h : m.InStep) {shares : List Section}
    (hok : (m.reconcile shares).result = .ok ()) {s : Section} (hs : s ∈ shares)
    (hexplicit : s.binding = .explicit) : (m.declareAll shares).BoundAs s.label s.properties := by
  induction shares generalizing m with
  | nil => exact absurd hs List.not_mem_nil
  | cons first rest ih =>
    have hin := h.perform first.declaration
    obtain ⟨-, -, hend⟩ | ⟨-, hbound, hnext⟩ := h.reconcile_cons_cases first
    · exact absurd (hok.symm.trans (hend rest).1) (by simp)
    · rw [(hnext rest).1] at hok
      rcases List.mem_cons.mp hs with rfl | hs
      · obtain ⟨-, -, hkeeps⟩ | ⟨before, t, later, -, -, -, herror, -⟩ := hin.reconcile_cases rest
        · exact (hbound hexplicit).of_keeps hkeeps
        · exact absurd (hok.symm.trans herror) (by simp)
      · exact ih hin hok hs

/-! ## What a refused merge leaves -/

/-- What a merge of replicas that ends in a violation leaves of a monitor. -/
inductive Abandoned (m : Monitor) (replicas : List Monitor) : Violation → Monitor → Prop
  /-- While a section of a replica runs nothing happens at all. -/
  | running {s : Section} (hs : replicas.findSome? running? = some s) :
      Abandoned m replicas (.runningDuringMerge s.label) m
  /-- The sections before the one whose properties are refused have been declared. -/
  | conflict {before rest : List Section} {s : Section}
      (hidle : replicas.findSome? running? = none)
      (hshares : replicas.flatMap sections = before ++ s :: rest)
      (hexplicit : s.binding = .explicit)
      (hrefused : ((m.declareAll before).sectionOf s.label).bind? s.properties = none)
      (hkeeps : m.Keeps ((m.declareAll before).register s.label)) :
      Abandoned m replicas
        (.conflictingProperties s.label ((m.declareAll before).sectionOf s.label).properties
          s.properties)
        ((m.declareAll before).register s.label)

/-- **A merge.** It is refused and leaves what `Abandoned` says, or it declares the sections of all
replicas and adds what they measured. -/
theorem InStep.merge_cases (h : m.InStep) (replicas : List Monitor) :
    (∃ v, (m.merge replicas).result = .error v ∧
        m.Abandoned replicas v (m.merge replicas).monitor) ∨
      ((m.merge replicas).result = .ok () ∧ m.Keeps (m.declareAll (replicas.flatMap sections)) ∧
        (m.merge replicas).monitor
          = (m.declareAll (replicas.flatMap sections)).absorb (replicas.flatMap sections)) := by
  rw [merge]
  cases hrun : replicas.findSome? running? with
  | some s => exact .inl ⟨_, rfl, .running hrun⟩
  | none =>
    obtain ⟨hok, hm, hkeeps⟩ |
        ⟨before, s, rest, hshares, hexplicit, hrefused, herror, hm, hbefore⟩ :=
      h.reconcile_cases (replicas.flatMap sections)
    · simp only [hok, hm]
      exact .inr ⟨trivial, hkeeps, trivial⟩
    · simp only [herror, hm]
      exact .inl ⟨_, rfl, .conflict hrun hshares hexplicit hrefused
        (hbefore.trans (.register _ _))⟩

/-- What a merge that is not refused leads to. -/
theorem InStep.monitor_merge (h : m.InStep) {replicas : List Monitor}
    (hok : (m.merge replicas).result = .ok ()) :
    m.Keeps (m.declareAll (replicas.flatMap sections)) ∧
      (m.merge replicas).monitor
        = (m.declareAll (replicas.flatMap sections)).absorb (replicas.flatMap sections) := by
  obtain ⟨v, hv, -⟩ | ⟨-, hmerged⟩ := h.merge_cases replicas
  · exact absurd (hok.symm.trans hv) (by simp)
  · exact hmerged

theorem result_reconcile_of_merge {replicas : List Monitor}
    (hok : (m.merge replicas).result = .ok ()) :
    (m.reconcile (replicas.flatMap sections)).result = .ok () := by
  rw [merge] at hok
  rcases hrun : replicas.findSome? running? with _ | s
  · rcases hresult : (m.reconcile (replicas.flatMap sections)).result with v | _
    · simp [hrun, hresult] at hok
    · rfl
  · simp [hrun, Outcome.refusal] at hok

theorem InStep.abandoned_of_merge (h : m.InStep) {replicas : List Monitor} {v : Violation}
    (hv : (m.merge replicas).result = .error v) :
    m.Abandoned replicas v (m.merge replicas).monitor := by
  obtain ⟨w, hw, hleft⟩ | ⟨hok, -, -⟩ := h.merge_cases replicas
  · obtain rfl := Except.error.inj (hv.symm.trans hw)
    exact hleft
  · exact absurd (hv.symm.trans hok) (by simp)

/-- **The end of a parallel region.** It ends as a thread that did not finish and leaves the
monitor as it is, or all threads finished and their replicas are merged. -/
theorem join_cases (m : Monitor) (done : List (Monitor × Ending)) :
    (∃ d ∈ done, d.2 ≠ .finished ∧ (m.join done).ending = d.2 ∧ (m.join done).monitor = m) ∨
      (∀ d ∈ done, d.2 = .finished) ∧
        (m.join done).ending = .ofResult (m.merge (done.map Prod.fst)).result ∧
        (m.join done).monitor = (m.merge (done.map Prod.fst)).monitor := by
  rw [join]
  cases hpanic : done.findSome? fun d ↦ d.2.panic? with
  | some message =>
    obtain ⟨d, hd, hmessage⟩ := List.exists_of_findSome?_eq_some hpanic
    have hend : d.2 = .panicked message := by
      cases hend : d.2 <;> simp [hend, Ending.panic?] at hmessage ⊢
      exact hmessage
    exact .inl ⟨d, hd, by simp [hend], hend.symm, rfl⟩
  | none =>
    cases hviolation : done.findSome? fun d ↦ d.2.violation? with
    | some v =>
      obtain ⟨d, hd, hv⟩ := List.exists_of_findSome?_eq_some hviolation
      have hend : d.2 = .refused v := by
        cases hend : d.2 <;> simp [hend, Ending.violation?] at hv ⊢
        exact hv
      exact .inl ⟨d, hd, by simp [hend], hend.symm, rfl⟩
    | none =>
      rw [List.findSome?_eq_none_iff] at hpanic hviolation
      refine .inr ⟨fun d hd ↦ ?_, rfl, rfl⟩
      cases hend : d.2 with
      | finished => rfl
      | refused v => simpa [hend, Ending.violation?] using hviolation d hd
      | panicked message => simpa [hend, Ending.panic?] using hpanic d hd

/-- **A refused merge adds no measurements.** If a merge is refused because a replica still runs,
the monitor is as before. If it is refused because properties are in conflict, the sections before
the conflict have been declared, which keeps all measurements, running intervals and handles, the
token and the root section. A parallel region that is refused leaves the monitor as before, or, if
all threads finished, as the refused merge of their replicas leaves it. -/
theorem refused_merge_keeps_measurements (h : m.Reachable) :
    (∀ replicas v, (m.merge replicas).result = .error v →
        m.Abandoned replicas v (m.merge replicas).monitor) ∧
      ∀ here body v, (m.parallel here body).ending = .refused v →
        let done := (m.crew here).mapIdx fun thread r ↦ body thread r.1
        ((∃ d ∈ done, d.2 = .refused v) ∧ (m.parallel here body).monitor = m) ∨
          (∀ d ∈ done, d.2 = .finished) ∧
            m.Abandoned (done.map Prod.fst) v (m.parallel here body).monitor := by
  refine ⟨fun replicas v hv ↦ h.inStep.abandoned_of_merge hv, fun here body v hv ↦ ?_⟩
  obtain ⟨d, hd, -, hend, hm⟩ | ⟨hfinished, hend, hm⟩ :=
    m.join_cases ((m.crew here).mapIdx fun thread r ↦ body thread r.1)
  · exact .inl ⟨⟨d, hd, hend.symm.trans hv⟩, hm⟩
  · have herror : Ending.ofResult (m.merge _).result = .refused v := hend.symm.trans hv
    refine .inr ⟨hfinished, ?_⟩
    rw [parallel, hm]
    refine h.inStep.abandoned_of_merge ?_
    cases hresult : (m.merge _).result with
    | ok a => simp [hresult, Ending.ofResult] at herror
    | error w => simpa [hresult, Ending.ofResult] using herror

/-- A monitor that knows a label, but has neither used nor bound it. -/
def undecided : Monitor := (build {} none false .zero).after (.call (.resolve "halo"))

/-- Two threads bind the label in different ways. -/
def disagreement (thread : ℕ) (r : Monitor) : Monitor × Ending :=
  ((r.setProperties "halo" ⟨if thread = 0 then .communication else .computation, false⟩).monitor,
    .finished)

/-- The replicas in which they do so. -/
def disagreeing : List Monitor :=
  [(disagreement 0 (undecided.replica 0)).1, (disagreement 1 (undecided.replica 1)).1]

theorem reachable_undecided : undecided.Reachable := (Reachable.build {} none false .zero).after _

/-- The first of two threads that disagree has bound the label of the parent when the second one is
refused. -/
theorem refused_merge_is_not_undone :
    (¬∀ m replicas v, Reachable m → (m.merge replicas).result = .error v →
        (m.merge replicas).monitor = m) ∧
      ¬∀ m here body v, Reachable m → (m.parallel here body).ending = .refused v →
        (∀ d ∈ (m.crew here).mapIdx fun thread r ↦ body thread r.1, d.2 = .finished) →
        (m.parallel here body).monitor = m := by
  constructor
  · intro hall
    have hkept := hall undecided disagreeing
      (.conflictingProperties "halo" ⟨.communication, false⟩ ⟨.computation, false⟩)
      reachable_undecided (by decide +kernel)
    exact absurd (congrArg sections hkept) (by decide +kernel)
  · intro hall
    have hkept := hall undecided { Surroundings.plain .zero with team := .fixed 2 } disagreement
      (.conflictingProperties "halo" ⟨.communication, false⟩ ⟨.computation, false⟩)
      reachable_undecided (by decide +kernel) (by decide +kernel)
    exact absurd (congrArg sections hkept) (by decide +kernel)

/-- What they leave is a label bound by the first thread, and nothing measured. -/
theorem refused_merge_keeps_declarations :
    undecided.Reachable ∧
      (undecided.merge disagreeing).result
        = .error (.conflictingProperties "halo" ⟨.communication, false⟩ ⟨.computation, false⟩) ∧
      undecided.Abandoned disagreeing
        (.conflictingProperties "halo" ⟨.communication, false⟩ ⟨.computation, false⟩)
        (undecided.merge disagreeing).monitor := by
  have herror : (undecided.merge disagreeing).result
      = .error (.conflictingProperties "halo" ⟨.communication, false⟩ ⟨.computation, false⟩) := by
    decide +kernel
  exact ⟨reachable_undecided, herror,
    (refused_merge_keeps_measurements reachable_undecided).1 disagreeing _ herror⟩

end Monitor

end SectionMonitor
