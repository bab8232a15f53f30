import SectionMonitor.Proofs.Calls
import SectionMonitor.Proofs.Merge

/-!
# Properties of sections that are in use

A section that has been started has `Settled` for its properties: no others can be bound any more.
The monitor does not remember that the section has been started. It goes by what it knows otherwise:
that the section was bound by name, that it has finished intervals, or that it runs. Almost
everything that can be done keeps one of the three. What does not is to empty a section that was
never bound by name: it then looks like a new one, and other properties can be bound.

`properties_fixed_iff` says that this and forgetting all sections are the only ways in which
properties come up for decision again.
-/

namespace SectionMonitor

theorem Count.saturatingAdd_ne_zero {a b : Count} (h : a ≠ 0 ∨ b ≠ 0) : a.saturatingAdd b ≠ 0 := by
  have hpos {c : Count} (hc : c ≠ 0) : 0 < c.toNat :=
    Nat.pos_of_ne_zero fun hzero ↦ hc (UInt64.toNat_inj.mp hzero)
  intro hsum
  have hnat : min (a.toNat + b.toNat) limit = 0 := by
    rw [← toNat_saturatingAdd, hsum]
    rfl
  have hlimit : 0 < limit := by decide
  rcases h with h | h
  · have := hpos h
    omega
  · have := hpos h
    omega

/-! ## Sections whose properties are settled -/

namespace Section

variable {s bound : Section} {p requested : Properties}

/-- The section has the properties, and others can no longer be bound. -/
structure Settled (s : Section) (p : Properties) : Prop where
  properties_eq : s.properties = p
  not_open : s.isOpenToBinding = false

/-- What the monitor goes by. -/
theorem isOpenToBinding_eq_false_iff :
    s.isOpenToBinding = false
      ↔ s.binding = .explicit ∨ s.totals.calls ≠ 0 ∨ s.isRunning = true := by
  cases hbinding : s.binding <;> simp [isOpenToBinding, hbinding, imp_iff_not_or]

/-- Other properties are refused if the section is settled, and only then. -/
theorem settled_iff :
    s.Settled p ↔ s.properties = p ∧ ∀ requested ≠ p, s.bind? requested = none := by
  constructor
  · rintro ⟨rfl, hopen⟩
    refine ⟨rfl, fun requested hne ↦ ?_⟩
    simp [bind?, hopen, Ne.symm hne]
  · rintro ⟨rfl, hrefused⟩
    refine ⟨rfl, Bool.eq_false_iff.mpr fun hopen ↦ ?_⟩
    have hne : (⟨s.properties.kind, !s.properties.exclusive⟩ : Properties) ≠ s.properties := by
      intro heq
      simpa using congrArg Properties.exclusive heq
    simpa [bind?, hopen] using hrefused _ hne

namespace Settled

theorem of_bind? (h : s.Settled p) (hbound : s.bind? requested = some bound) :
    bound.Settled p := by
  have hsame : requested = p := by
    by_contra hne
    rw [(settled_iff.mp h).2 requested hne] at hbound
    cases hbound
  rw [Monitor.eq_of_bind? hbound]
  exact ⟨hsame, isOpenToBinding_eq_false_iff.mpr (.inl rfl)⟩

theorem of_running (hproperties : s.properties = p) (hrunning : s.isRunning = true) :
    s.Settled p :=
  ⟨hproperties, isOpenToBinding_eq_false_iff.mpr (.inr (.inr hrunning))⟩

theorem finish (h : s.Settled p) (elapsed : Duration) (volume : Float) (counters : Reading) :
    (s.finish elapsed volume counters).Settled p :=
  ⟨h.properties_eq, isOpenToBinding_eq_false_iff.mpr
    (.inr (.inl (Count.saturatingAdd_ne_zero (.inr (by decide)))))⟩

theorem clear (h : s.Settled p) (hbinding : s.binding = .explicit) : s.clear.Settled p :=
  ⟨h.properties_eq, isOpenToBinding_eq_false_iff.mpr (.inl hbinding)⟩

theorem absorb (h : s.Settled p) (shares : List Totals) : (s.absorb shares).Settled p := by
  rw [Section.absorb]
  split
  · exact h
  · refine ⟨h.properties_eq, isOpenToBinding_eq_false_iff.mpr ?_⟩
    rcases isOpenToBinding_eq_false_iff.mp h.not_open with hbinding | hcalls | hrunning
    · exact .inl hbinding
    · exact .inr (.inl (Count.saturatingAdd_ne_zero (.inl hcalls)))
    · exact .inr (.inr hrunning)

end Settled

/-- An idle section that was not bound by name is open again once it is emptied. -/
theorem isOpenToBinding_clear (hbinding : s.binding = .implicit) (hidle : s.phase = .idle) :
    s.clear.isOpenToBinding = true := by
  simp [isOpenToBinding, clear, hbinding, isRunning, hidle]

end Section

namespace Monitor

variable {m m' : Monitor} {label : String} {p : Properties} {op : Operation}

/-! ## Labels whose properties are fixed -/

/-- The section of the label has the properties, and every binding to others is refused. -/
structure Fixes (m : Monitor) (label : String) (p : Properties) : Prop where
  found : ∃ i s, m.find? label = some (i, s) ∧ s.properties = p
  refused : ∀ requested ≠ p, (m.setProperties label requested).result
    = .error (.conflictingProperties label p requested)

/-- The label has a section with these properties, and they are settled. -/
def Settles (m : Monitor) (label : String) (p : Properties) : Prop :=
  ∃ s ∈ m.sections, s.label = label ∧ s.Settled p

theorem InStep.settles_iff (h : m.InStep) :
    m.Settles label p ↔ (∃ i, m.find? label = some (i, m.sectionOf label)) ∧
      (m.sectionOf label).Settled p := by
  constructor
  · rintro ⟨s, hs, rfl, hsettled⟩
    obtain ⟨k, hk⟩ := List.getElem?_of_mem hs
    rw [h.sectionOf_section hk]
    refine ⟨⟨⟨k + 1⟩, ?_⟩, hsettled⟩
    rw [find?, h.lookup_of_section hk, Option.map_some, sectionAt_of_section hk]
  · rintro ⟨⟨i, hfind⟩, hsettled⟩
    obtain ⟨j, hj, -⟩ := Option.map_eq_some_iff.mp hfind
    obtain ⟨k, s, -, hs, rfl⟩ := h.exists_section_of_lookup hj
    rw [h.sectionOf_section hs] at hsettled
    exact ⟨s, List.mem_of_getElem? hs, rfl, hsettled⟩

/-- Properties are fixed exactly if they are settled. -/
theorem InStep.fixes_iff (h : m.InStep) : m.Fixes label p ↔ m.Settles label p := by
  rw [h.settles_iff, Section.settled_iff]
  constructor
  · rintro ⟨⟨i, s, hfind, hproperties⟩, hrefused⟩
    obtain ⟨hnone, -⟩ | ⟨j, hfound⟩ := h.find?_cases label
    · cases hnone.symm.trans hfind
    · obtain ⟨-, rfl⟩ := Prod.mk.inj (Option.some.inj (hfound.symm.trans hfind))
      refine ⟨⟨j, hfound⟩, hproperties, fun requested hne ↦ ?_⟩
      have hresult := hrefused requested hne
      rw [h.result_setProperties] at hresult
      cases hbound : (m.sectionOf label).bind? requested with
      | none => rfl
      | some bound => simp [hbound] at hresult
  · rintro ⟨⟨i, hfind⟩, hproperties, hrefused⟩
    refine ⟨⟨i, _, hfind, hproperties⟩, fun requested hne ↦ ?_⟩
    rw [h.result_setProperties, hrefused requested hne, hproperties]

/-! ## What an operation does to them -/

namespace Settles

/-- A change of one section that keeps its label, and keeps it settled if it was. -/
theorem modify (hsettles : m.Settles label p) {k : ℕ} {s : Section} {f : Section → Section}
    (hsections : m'.sections = m.sections.modify k f) (hs : m.sections[k]? = some s)
    (hlabel : (f s).label = s.label) (hf : s.label = label → s.Settled p → (f s).Settled p) :
    m'.Settles label p := by
  obtain ⟨t, ht, rfl, hsettled⟩ := hsettles
  obtain ⟨j, hj⟩ := List.getElem?_of_mem ht
  by_cases hjk : k = j
  · subst hjk
    obtain rfl : s = t := Option.some.inj (hs.symm.trans hj)
    refine ⟨f s, List.mem_of_getElem? (i := k) ?_, hlabel, hf rfl hsettled⟩
    rw [hsections, List.getElem?_modify_eq, hs, Option.map_eq_map, Option.map_some]
  · refine ⟨t, List.mem_of_getElem? (i := j) ?_, rfl, hsettled⟩
    rw [hsections, List.getElem?_modify_ne f _ hjk, hj]

theorem keeps (hsettles : m.Settles label p) (hkeeps : m.Keeps m') : m'.Settles label p := by
  obtain ⟨s, hs, rfl, hsettled⟩ := hsettles
  obtain ⟨k, hk⟩ := List.getElem?_of_mem hs
  obtain ⟨s', hs', rfl | hbound⟩ := hkeeps.section_kept k s hk
  · exact ⟨s', List.mem_of_getElem? hs', rfl, hsettled⟩
  · exact ⟨s', List.mem_of_getElem? hs', label_of_bind? hbound, hsettled.of_bind? hbound⟩

theorem merge (hsettles : m.Settles label p) (h : m.InStep) (replicas : List Monitor) :
    (m.merge replicas).monitor.Settles label p := by
  obtain ⟨v, -, hleft⟩ | ⟨-, hkeeps, hm⟩ := h.merge_cases replicas
  · generalize (m.merge replicas).monitor = m' at hleft
    cases hleft with
    | running hs => exact hsettles
    | conflict hidle hshares hexplicit hrefused hkeeps => exact hsettles.keeps hkeeps
  · obtain ⟨s, hs, rfl, hsettled⟩ := hsettles.keeps hkeeps
    rw [hm]
    exact ⟨_, List.mem_map_of_mem hs, s.label_absorb _, hsettled.absorb _⟩

theorem gather (hsettles : m.Settles label p) (now : Duration) (t : Transport) :
    (m.after (.gather now t)).Settles label p := by
  obtain hm | ⟨-, -, labels, hm⟩ := m.gather_cases now t
  · rwa [hm]
  · have hsealed : (m.sealed now).Settles label p := by
      rwa [Settles, sections_sealed]
    obtain ⟨s, hs, hsettled⟩ := hsealed.keeps (.registerAll (m.sealed now) labels)
    rw [hm]
    exact ⟨s, hs, hsettled⟩

end Settles

/-- The operation succeeds in forgetting all sections, or in emptying the section of the label
although it was not bound by name. -/
def Reopens (m : Monitor) (label : String) : Operation → Prop
  | .call (.reset other) =>
    other = label ∧ (m.reset label).result = .ok () ∧ (m.sectionOf label).binding = .implicit
  | .call (.resetAll now) => (m.resetAll now).result = .ok ()
  | _ => False

/-- Nothing but an open interval keeps a section from being emptied. -/
theorem InStep.result_reset_of_idle (h : m.InStep) (hidle : (m.sectionOf label).phase = .idle) :
    (m.reset label).result = .ok () := by
  rw [reset]
  cases hlookup : m.lookup label with
  | none => rfl
  | some i =>
    obtain ⟨k, s, rfl, hs, rfl⟩ := h.exists_section_of_lookup hlookup
    rw [h.sectionOf_section hs] at hidle
    simp only [sectionAt_of_section hs, isRunning_eq_false_iff.mpr hidle]
    rfl

/-- **A step.** Properties that are settled stay so, unless the operation reopens them. -/
theorem Settles.after (hsettles : m.Settles label p) (h : m.InStep) {op : Operation}
    (hkept : ¬m.Reopens label op) : (m.after op).Settles label p := by
  have hregister (other : String) : (m.register other).Settles label p :=
    hsettles.keeps (.register m other)
  cases op with
  | call c =>
    have hstep := h.callStep c
    rw [Monitor.after]
    generalize hm : (m.perform c).monitor = m' at hstep
    cases hstep with
    | nothing => exact hsettles
    | register other => exact hregister other
    | bind hs hbound =>
      exact (hregister _).modify rfl hs (label_of_bind? hbound) fun _ hs ↦ hs.of_bind? hbound
    | openInterval hk hs hidle hresult =>
      exact (hregister _).modify (sections_openInterval ..) hs rfl fun _ hs ↦
        .of_running hs.properties_eq rfl
    | closeInterval hk hs hrunning hresult =>
      exact hsettles.modify (sections_closeInterval ..) hs rfl fun _ hs ↦ hs.finish _ _ _
    | @clear other k hs hidle =>
      refine hsettles.modify (sections_modifySection ..) hs rfl fun hlabel hs' ↦ hs'.clear ?_
      -- Emptying the section did not reopen it, so it was bound by name.
      rw [label_sectionOf] at hlabel
      subst hlabel
      cases hbinding : (m.sectionOf other).binding with
      | explicit => rfl
      | implicit => exact absurd ⟨rfl, h.result_reset_of_idle hidle, hbinding⟩ hkept
    | @restart now hidle =>
      refine absurd (a := (m.resetAll now).result = .ok ()) ?_ hkept
      rw [resetAll, hidle]
      rfl
  | replica thread => exact hsettles
  | merge replicas => exact hsettles.merge h replicas
  | parallel here body =>
    obtain ⟨-, -, -, -, hm⟩ | ⟨-, -, hm⟩ :=
      m.join_cases ((m.crew here).mapIdx fun thread r ↦ body thread r.1)
    · rwa [Monitor.after, Monitor.parallel, hm]
    · rw [Monitor.after, Monitor.parallel, hm]
      exact hsettles.merge h _
  | gather now t => exact hsettles.gather now t

/-- Properties that were reopened are not settled. -/
theorem InStep.not_settles_after (h : m.InStep) (hreopens : m.Reopens label op)
    (p : Properties) : ¬(m.after op).Settles label p := by
  intro hsettles
  cases op with
  | call c =>
    rw [after] at hsettles
    cases c with
    | reset other =>
      obtain ⟨rfl, hresult, hbinding⟩ := hreopens
      have hin := h.perform (.reset other)
      rw [Monitor.perform, Outcome.monitor_map] at hsettles hin
      obtain ⟨⟨j, hfind⟩, hsettled⟩ := hin.settles_iff.mp hsettles
      obtain ⟨hnew, -, hm⟩ | ⟨hrefused, -⟩ | ⟨k, hs, hidle, -, hm⟩ := h.reset_cases other
      · rw [hm, find?, hnew] at hfind
        cases hfind
      · cases hrefused.symm.trans hresult
      · have hcleared : (m.reset other).monitor.sections[k]? = some (m.sectionOf other).clear := by
          rw [hm, sections_modifySection, List.getElem?_modify_eq, hs, Option.map_eq_map,
            Option.map_some]
        have hlabel : (m.sectionOf other).clear.label = other := label_sectionOf m other
        have heq := hin.sectionOf_section hcleared
        rw [hlabel] at heq
        rw [heq] at hsettled
        exact absurd ((Section.isOpenToBinding_clear hbinding hidle).symm.trans hsettled.not_open)
          (by simp)
    | resetAll now =>
      have hresult : (m.resetAll now).result = .ok () := hreopens
      obtain ⟨⟨v, hrefused⟩, -⟩ | ⟨-, -, hm⟩ := m.resetAll_cases now
      · cases hrefused.symm.trans hresult
      · rw [Monitor.perform, Outcome.monitor_map, hm] at hsettles
        obtain ⟨s, hs, -⟩ := hsettles
        exact absurd hs List.not_mem_nil
    | resolve other => exact hreopens
    | setProperties other requested => exact hreopens
    | start here other => exact hreopens
    | stop here other work => exact hreopens
  | replica thread => exact hreopens
  | merge replicas => exact hreopens
  | parallel here body => exact hreopens
  | gather now t => exact hreopens

/-! ## Runs -/

theorem InStep.settles_start (h : m.InStep) {here : Surroundings} {i : Index}
    (hstart : (m.start here label).result = .ok i) :
    (m.after (.call (.start here label))).Settles label (m.sectionOf label).properties := by
  rw [after, Monitor.perform, Outcome.monitor_map]
  obtain ⟨-, hrefused, -⟩ | ⟨_, -, -, -, hrefused, -⟩ | ⟨-, -, -, hm⟩ := h.start_cases here label
  · cases hrefused.symm.trans hstart
  · cases hrefused.symm.trans hstart
  · obtain ⟨k, hk, hs⟩ := h.exists_section_register label
    rw [hm, hk]
    let running := { m.sectionOf label with
      phase := .running here.now ((m.register label).takeSnapshots here) }
    refine ⟨running, List.mem_of_getElem? (i := k) ?_, label_sectionOf m label,
      .of_running rfl rfl⟩
    rw [sections_openInterval, List.getElem?_modify_eq, hs, Option.map_eq_map, Option.map_some]

/-- Along a run that does not reopen them properties stay settled. -/
theorem Settles.run (hsettles : m.Settles label p) (h : m.InStep) {ops : List Operation}
    (hkept : ∀ before op, before ++ [op] <+: ops → ¬(m.run before).Reopens label op) :
    (m.run ops).Settles label p := by
  induction ops using List.reverseRecOn with
  | nil => exact hsettles
  | append_singleton ops op ih =>
    have hbefore := ih fun before op' hinitial ↦
      hkept before op' (hinitial.trans (List.prefix_append ops [op]))
    rw [run_append]
    exact hbefore.after ((run_edits h ops).inStep h) (hkept ops op List.prefix_rfl)

/-- **Properties are fixed once a section has been started.** After a successful start, and all
along any operations, the section keeps its properties and every binding to others is refused,
exactly as long as no operation succeeds in forgetting all sections or in emptying the section
although nobody bound it by name. -/
theorem properties_fixed_iff (h : m.Reachable) {here : Surroundings} {i : Index}
    (hstart : (m.start here label).result = .ok i) (ops : List Operation) :
    let started := m.after (.call (.start here label))
    (∀ before, before <+: ops →
        (started.run before).Fixes label (m.sectionOf label).properties) ↔
      ∀ before op, before ++ [op] <+: ops → ¬(started.run before).Reopens label op := by
  intro started
  have hin (before : List Operation) : (started.run before).InStep :=
    ((h.after _).run before).inStep
  constructor
  · intro hfixes before op hinitial hreopens
    have hafter := (hin (before ++ [op])).fixes_iff.mp (hfixes _ hinitial)
    rw [run_append] at hafter
    exact (hin before).not_settles_after hreopens _ hafter
  · intro hkept before hinitial
    rw [(hin before).fixes_iff]
    exact (h.inStep.settles_start hstart).run (hin []) fun earlier op hearlier ↦
      hkept earlier op (hearlier.trans hinitial)

/-- A section that was used, emptied and then bound to other properties. -/
def rebinding : List Operation :=
  [.call (.stop (.plain .zero) "used" {}), .call (.reset "used"),
    .call (.setProperties "used" ⟨.communication, false⟩)]

/-- Emptying the section has reopened its properties, and others are bound without a complaint. -/
theorem emptied_section_is_bound_anew :
    let m := build {} none false .zero
    let started := m.after (.call (.start (.plain .zero) "used"))
    m.Reachable ∧ (m.start (.plain .zero) "used").result = .ok ⟨1⟩ ∧
      (m.sectionOf "used").properties = ⟨.computation, true⟩ ∧
      (∀ op ∈ rebinding, ∀ now, op ≠ .call (.resetAll now)) ∧
      (¬∀ before, before <+: rebinding → (started.run before).Fixes "used" ⟨.computation, true⟩) ∧
      ((started.run rebinding).sectionOf "used").properties = ⟨.communication, false⟩ := by
  intro m started
  have hstart : (m.start (.plain .zero) "used").result = .ok ⟨1⟩ := by decide +kernel
  refine ⟨.build .., hstart, rfl, by simp [rebinding], fun hfixes ↦ ?_, by decide +kernel⟩
  refine (properties_fixed_iff (.build ..) hstart rebinding).mp hfixes
    [.call (.stop (.plain .zero) "used" {})] (.call (.reset "used"))
    ⟨[.call (.setProperties "used" ⟨.communication, false⟩)], rfl⟩ ⟨rfl, ?_, ?_⟩
  · decide +kernel
  · decide +kernel

end Monitor

end SectionMonitor
