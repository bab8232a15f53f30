import SectionMonitor.Proofs.Calls
import SectionMonitor.Proofs.Deeds
import SectionMonitor.Proofs.Merge

/-!
# Bindings by name

A label is bound by name if somebody has asked for its properties: the process itself, or a thread
whose replica has been merged. Nothing undoes such a binding but forgetting all sections.

`Monitor.BoundSince` tells from the past of a monitor whether a label has been bound by name since
all sections were last forgotten; `boundSince_iff` finds the answer in the monitor, whatever has
happened in between. A merge is the operation to look at: it takes over the bindings that it comes
across, and what it has taken over stays although a later one is refused.
-/

namespace SectionMonitor

/-- The properties that the section was bound to by name. -/
def Section.named? (s : Section) : Option Properties :=
  match s.binding with
  | .implicit => none
  | .explicit => some s.properties

theorem Section.named?_eq_some_iff {s : Section} {p : Properties} :
    s.named? = some p ↔ s.binding = .explicit ∧ s.properties = p := by
  rw [named?]
  cases s.binding <;> simp

/-- Binding replaces what a section was bound to before. -/
theorem Section.named?_of_bind? {s bound : Section} {p : Properties}
    (h : s.bind? p = some bound) : bound.named? = some p := by
  rw [Monitor.eq_of_bind? h]
  rfl

theorem Section.named?_absorb (s : Section) (shares : List Totals) :
    (s.absorb shares).named? = s.named? := by
  rw [s.absorb_eq_with_totals]
  rfl

namespace Monitor

variable {m m' : Monitor} {label : String} {p : Properties}

/-- The properties that the label was bound to by name. -/
def named? (m : Monitor) (label : String) : Option Properties := (m.sectionOf label).named?

theorem InStep.boundAs_iff (h : m.InStep) : m.BoundAs label p ↔ m.named? label = some p := by
  rw [named?, Section.named?_eq_some_iff]
  constructor
  · rintro ⟨k, s, hs, rfl, hexplicit, hproperties⟩
    rw [h.sectionOf_section hs]
    exact ⟨hexplicit, hproperties⟩
  · rintro ⟨hexplicit, hproperties⟩
    cases hlookup : m.lookup label with
    | none =>
      rw [h.sectionOf_of_new hlookup] at hexplicit
      cases hexplicit
    | some i =>
      obtain ⟨k, s, -, hs, rfl⟩ := h.exists_section_of_lookup hlookup
      rw [h.sectionOf_section hs] at hexplicit hproperties
      exact ⟨k, s, hs, rfl, hexplicit, hproperties⟩

theorem InStep.named?_register (h : m.InStep) (other label : String) :
    (m.register other).named? label = m.named? label := by
  rw [named?, sectionOf_register h, named?]

/-- A change of one section that leaves its binding alone. -/
theorem InStep.named?_modify (h : m.InStep) {k : ℕ} {s : Section} {f : Section → Section}
    (hsections : m'.sections = m.sections.modify k f) (hregistry : m'.registry = m.registry)
    (hsetup : m'.SetUpAs m) (hs : m.sections[k]? = some s) (hf : (f s).label = s.label)
    (hnamed : (f s).named? = s.named?) (label : String) : m'.named? label = m.named? label := by
  rw [named?, h.sectionOf_modify hsections hregistry hsetup hs hf, named?]
  split_ifs with hlabel
  · rw [hnamed, hlabel, h.sectionOf_section hs]
  · rfl

/-- **A binding by name.** What it binds is bound afterwards; all else is as before. -/
theorem InStep.named?_setProperties (h : m.InStep) (other : String) (requested : Properties) :
    (m.setProperties other requested).monitor.named? label = some p ↔
      (other = label ∧ requested = p ∧ (m.sectionOf label).bind? p ≠ none) ∨
        m.named? label = some p := by
  obtain ⟨⟨v, hv⟩, hm⟩ | ⟨k, bound, hs, hbound, -, hm⟩ := h.setProperties_cases other requested
  · rw [hm, h.named?_register]
    refine ⟨.inr, ?_⟩
    rintro (⟨rfl, rfl, hopen⟩ | hnamed)
    · obtain ⟨bound, hbound⟩ := Option.ne_none_iff_exists'.mp hopen
      rw [setProperties, Monitor.bind, h.sectionAt_register, hbound] at hv
      cases hv
    · exact hnamed
  · rw [hm, named?, (h.register other).sectionOf_modify (sections_modifySection ..) rfl
      ⟨rfl, rfl, rfl⟩ hs (label_of_bind? hbound), label_sectionOf]
    split_ifs with hlabel
    · subst hlabel
      rw [Section.named?_of_bind? hbound, Option.some.injEq]
      constructor
      · rintro rfl
        exact .inl ⟨rfl, rfl, by simp [hbound]⟩
      · rintro (⟨-, rfl, -⟩ | hnamed)
        · rfl
        · -- The label was bound to these properties before, so no others can have been bound.
          obtain ⟨hexplicit, rfl⟩ := Section.named?_eq_some_iff.mp hnamed
          have hsame := eq_of_bind?_of_explicit hbound hexplicit
          rw [← hsame, eq_of_bind? hbound]
    · rw [sectionOf_register h, ← named?]
      refine ⟨.inr, ?_⟩
      rintro (⟨rfl, -, -⟩ | hnamed)
      · exact absurd rfl hlabel
      · exact hnamed

/-! ## Bindings that a merge takes over -/

/-- Going through the sections, one comes to a binding of the label to the properties before
anything is refused. -/
def TakesOver (m : Monitor) (shares : List Section) (label : String) (p : Properties) : Prop :=
  ∃ before s, before ++ [s] <+: shares ∧ s.label = label ∧ s.named? = some p ∧
    (m.reconcile (before ++ [s])).result = .ok ()

theorem not_takesOver_nil : ¬m.TakesOver [] label p := by
  rintro ⟨before, s, hinitial, -⟩
  simpa using List.prefix_nil.mp hinitial

theorem InStep.named?_declaration (h : m.InStep) {s : Section}
    (hbound : s.binding = .explicit →
      (m.perform s.declaration).monitor.BoundAs s.label s.properties) :
    (m.perform s.declaration).monitor.named? label = some p ↔
      (s.label = label ∧ s.named? = some p) ∨ m.named? label = some p := by
  have hin := h.perform s.declaration
  cases hbinding : s.binding with
  | implicit =>
    rw [perform_declaration_of_implicit (by simp [hbinding]), h.named?_register, Section.named?,
      hbinding]
    simp
  | explicit =>
    have hnamed := hin.boundAs_iff.mp (hbound hbinding)
    rw [perform_declaration_of_explicit hbinding] at hnamed ⊢
    rw [h.named?_setProperties, Section.named?_eq_some_iff]
    constructor
    · rintro (⟨hlabel, hproperties, -⟩ | hbefore)
      · exact .inl ⟨hlabel, hbinding, hproperties⟩
      · exact .inr hbefore
    · rintro (⟨rfl, -, rfl⟩ | hbefore)
      · exact h.named?_setProperties _ _ |>.mp hnamed
      · exact .inr hbefore

/-- If the first section is refused, nothing is taken over. -/
theorem not_takesOver_cons {s : Section} {rest : List Section}
    (hrefused : ∀ later, (m.reconcile (s :: later)).result ≠ .ok ()) :
    ¬m.TakesOver (s :: rest) label p := by
  rintro ⟨before, t, hinitial, -, -, hok⟩
  have hne : before ++ [t] ≠ [] := List.append_ne_nil_of_right_ne_nil before (List.cons_ne_nil t [])
  obtain ⟨first, later, hfirst⟩ := List.exists_cons_of_ne_nil hne
  rw [hfirst] at hinitial hok
  obtain ⟨rfl, -⟩ := List.cons_prefix_cons.mp hinitial
  exact hrefused later hok

/-- **The first section.** If it can be declared, its own binding is taken over, and so is whatever
is taken over of the others after that. -/
theorem takesOver_cons_iff {s : Section} {rest : List Section} {next : Monitor}
    (hnext : ∀ later, (m.reconcile (s :: later)).result = (next.reconcile later).result) :
    m.TakesOver (s :: rest) label p ↔
      (s.label = label ∧ s.named? = some p) ∨ next.TakesOver rest label p := by
  constructor
  · rintro ⟨before, t, hinitial, hlabel, hnamed, hok⟩
    cases before with
    | nil =>
      obtain ⟨rfl, -⟩ := List.cons_prefix_cons.mp hinitial
      exact .inl ⟨hlabel, hnamed⟩
    | cons first before =>
      obtain ⟨rfl, hrest⟩ := List.cons_prefix_cons.mp hinitial
      rw [List.cons_append, hnext] at hok
      exact .inr ⟨before, t, hrest, hlabel, hnamed, hok⟩
  · rintro (⟨hlabel, hnamed⟩ | ⟨before, t, hinitial, hlabel, hnamed, hok⟩)
    · exact ⟨[], s, List.cons_prefix_cons.mpr ⟨rfl, List.nil_prefix⟩, hlabel, hnamed, hnext []⟩
    · refine ⟨s :: before, t, List.cons_prefix_cons.mpr ⟨rfl, hinitial⟩, hlabel, hnamed, ?_⟩
      rw [List.cons_append, hnext, hok]

/-- **What is bound by going through sections.** It was bound before, or it is taken over. -/
theorem InStep.named?_reconcile (h : m.InStep) (shares : List Section) :
    (m.reconcile shares).monitor.named? label = some p ↔
      m.TakesOver shares label p ∨ m.named? label = some p := by
  induction shares generalizing m with
  | nil => exact ⟨.inr, fun hboth ↦ hboth.resolve_left not_takesOver_nil⟩
  | cons s rest ih =>
    obtain ⟨-, -, hend⟩ | ⟨-, hbound, hnext⟩ := h.reconcile_cons_cases s
    · rw [(hend rest).2, h.named?_register]
      refine ⟨.inr, fun hboth ↦ hboth.resolve_left (not_takesOver_cons fun later hok ↦ ?_)⟩
      cases (hend later).1.symm.trans hok
    · rw [(hnext rest).2, ih (h.perform s.declaration), h.named?_declaration hbound,
        takesOver_cons_iff fun later ↦ (hnext later).1, or_left_comm, or_assoc]

/-! ## What an operation binds -/

/-- A merge takes over the binding of a replica, unless a replica still runs. -/
def Adopts (m : Monitor) (replicas : List Monitor) (label : String) (p : Properties) : Prop :=
  replicas.findSome? running? = none ∧ m.TakesOver (replicas.flatMap sections) label p

/-- The operation binds the label to the properties by name: it is a call that asks for them and is
not refused, or it brings in replicas and takes over the binding of one of them. -/
def Binds (m : Monitor) (label : String) (p : Properties) : Operation → Prop
  | .call (.setProperties other requested) =>
    other = label ∧ requested = p ∧ ∃ i, (m.setProperties label p).result = .ok i
  | .merge replicas => m.Adopts replicas label p
  | .parallel here body =>
    let done := (m.crew here).mapIdx fun thread r ↦ body thread r.1
    (∀ d ∈ done, d.2 = .finished) ∧ m.Adopts (done.map Prod.fst) label p
  | _ => False

/-- The operation succeeds in forgetting all sections. -/
def Forgets (m : Monitor) : Operation → Prop
  | .call (.resetAll now) => (m.resetAll now).result = .ok ()
  | _ => False

theorem InStep.result_setProperties_iff (h : m.InStep) :
    (∃ i, (m.setProperties label p).result = .ok i) ↔ (m.sectionOf label).bind? p ≠ none := by
  rw [h.result_setProperties]
  cases (m.sectionOf label).bind? p <;> simp

theorem InStep.named?_absorb (h : m.InStep) (shares : List Section) :
    (m.absorb shares).named? label = m.named? label := by
  have hin : (m.absorb shares).InStep := (Edit.absorb shares).inStep h
  rw [named?, named?]
  cases hlookup : m.lookup label with
  | none =>
    rw [h.sectionOf_of_new hlookup, hin.sectionOf_of_new hlookup]
    rfl
  | some i =>
    obtain ⟨k, s, -, hs, rfl⟩ := h.exists_section_of_lookup hlookup
    have hs' : (m.absorb shares).sections[k]? = some (s.absorb (sharesOf shares s.label)) := by
      rw [sections_absorb, List.getElem?_map, hs, Option.map_some]
    rw [h.sectionOf_section hs, ← s.label_absorb (sharesOf shares s.label),
      hin.sectionOf_section hs', Section.named?_absorb]

theorem InStep.named?_merge (h : m.InStep) (replicas : List Monitor) :
    (m.merge replicas).monitor.named? label = some p ↔
      m.Adopts replicas label p ∨ m.named? label = some p := by
  rw [merge, Adopts]
  cases hrunning : replicas.findSome? running? with
  | some s => simp [Outcome.refusal]
  | none =>
    have hshares : (m.reconcile (replicas.flatMap sections)).monitor.named? label = some p ↔
        m.TakesOver (replicas.flatMap sections) label p ∨ m.named? label = some p :=
      h.named?_reconcile (replicas.flatMap sections)
    have hin := (reconcile_edits h (replicas.flatMap sections)).inStep h
    cases hresult : (m.reconcile (replicas.flatMap sections)).result with
    | error v => simpa [hresult] using hshares
    | ok a => simpa [hresult, hin.named?_absorb] using hshares

theorem InStep.named?_parallel (h : m.InStep) (here : Surroundings)
    (body : ℕ → Monitor → Monitor × Ending) :
    (m.parallel here body).monitor.named? label = some p ↔
      m.Binds label p (.parallel here body) ∨ m.named? label = some p := by
  rw [parallel]
  obtain ⟨d, hd, hunfinished, -, hm⟩ | ⟨hfinished, -, hm⟩ :=
    m.join_cases ((m.crew here).mapIdx fun thread r ↦ body thread r.1)
  · rw [hm]
    exact ⟨.inr, fun hboth ↦ hboth.resolve_left fun hbinds ↦ hunfinished (hbinds.1 d hd)⟩
  · rw [hm, h.named?_merge]
    exact or_congr_left ⟨fun hadopts ↦ ⟨hfinished, hadopts⟩, And.right⟩

/-- Only two kinds of calls have to do with bindings: those that bind, and those that forget. -/
theorem CallStep.named?_eq {c : Call} (hstep : m.CallStep c m') (h : m.InStep)
    (hbind : ∀ other requested, c ≠ .setProperties other requested)
    (hforget : ∀ now, c ≠ .resetAll now) : m'.named? label = m.named? label := by
  cases hstep with
  | nothing => rfl
  | register other => exact h.named?_register other label
  | bind hs hbound => exact absurd rfl (hbind _ _)
  | @openInterval here other k hk hs hidle hresult =>
    rw [← h.named?_register other label]
    exact (h.register other).named?_modify (sections_openInterval ..) rfl ⟨rfl, rfl, rfl⟩ hs rfl
      rfl label
  | closeInterval hk hs hrunning hresult =>
    exact h.named?_modify (sections_closeInterval ..) rfl ⟨rfl, rfl, rfl⟩ hs rfl rfl label
  | clear hs hidle =>
    exact h.named?_modify (sections_modifySection ..) rfl ⟨rfl, rfl, rfl⟩ hs rfl rfl label
  | restart hidle => exact absurd rfl (hforget _)

theorem InStep.named?_perform (h : m.InStep) (c : Call) :
    (m.perform c).monitor.named? label = some p ↔
      m.Binds label p (.call c) ∨ (m.named? label = some p ∧ ¬m.Forgets (.call c)) := by
  have hstep := h.callStep c
  cases c with
  | setProperties other requested =>
    rw [Monitor.perform, Outcome.monitor_map, h.named?_setProperties]
    simp only [Binds, Forgets, not_false_eq_true, and_true, h.result_setProperties_iff]
  | resetAll now =>
    rw [Monitor.perform, Outcome.monitor_map]
    obtain ⟨⟨v, hv⟩, hm⟩ | ⟨-, hok, hm⟩ := m.resetAll_cases now
    · simp [hm, Binds, Forgets, hv]
    · have hforgotten : (m.restarted now).named? label = none := rfl
      simp [hm, hforgotten, Binds, Forgets, hok]
  | resolve other => simp [hstep.named?_eq h, Binds, Forgets]
  | start here other => simp [hstep.named?_eq h, Binds, Forgets]
  | stop here other work => simp [hstep.named?_eq h, Binds, Forgets]
  | reset other => simp [hstep.named?_eq h, Binds, Forgets]

/-- **A step.** A label is bound by name after an operation if the operation binds it, or if it was
bound before and the operation does not forget all sections. -/
theorem InStep.named?_after (h : m.InStep) (op : Operation) :
    (m.after op).named? label = some p ↔
      m.Binds label p op ∨ (m.named? label = some p ∧ ¬m.Forgets op) := by
  cases op with
  | call c => exact h.named?_perform c
  | replica thread => simp [after, Binds, Forgets]
  | merge replicas => simpa [after, Binds, Forgets] using h.named?_merge replicas
  | parallel here body => simpa [after, Forgets] using h.named?_parallel here body
  | gather now t => simp [named?, h.sectionOf_gather, Binds, Forgets]

/-! ## Runs -/

/-- Looking back on a run one finds that the label was bound by name: by the last operation, or
before it and the last operation did not forget all sections. A monitor may begin with bindings, as
a replica does with those of its parent. -/
inductive BoundSince (m : Monitor) (label : String) (p : Properties) : List Operation → Prop
  | inherited (hbound : m.BoundAs label p) : BoundSince m label p []
  | binds {ops : List Operation} {op : Operation} (hbinds : (m.run ops).Binds label p op) :
      BoundSince m label p (ops ++ [op])
  | kept {ops : List Operation} {op : Operation} (hbefore : BoundSince m label p ops)
      (hkept : ¬(m.run ops).Forgets op) : BoundSince m label p (ops ++ [op])

/-- **A run.** A monitor knows the properties that its labels were bound to by name since all
sections were last forgotten, and no others. -/
theorem InStep.boundSince_iff (h : m.InStep) (ops : List Operation) :
    m.BoundSince label p ops ↔ (m.run ops).named? label = some p := by
  constructor
  · intro hsince
    induction hsince with
    | inherited hbound => exact h.boundAs_iff.mp hbound
    | @binds ops op hbinds =>
      rw [run_append, ((run_edits h ops).inStep h).named?_after]
      exact .inl hbinds
    | @kept ops op hbefore hkept ih =>
      rw [run_append, ((run_edits h ops).inStep h).named?_after]
      exact .inr ⟨ih, hkept⟩
  · intro hnamed
    induction ops using List.reverseRecOn with
    | nil => exact .inherited (h.boundAs_iff.mpr hnamed)
    | append_singleton ops op ih =>
      rw [run_append, ((run_edits h ops).inStep h).named?_after] at hnamed
      rcases hnamed with hbinds | ⟨hbefore, hkept⟩
      · exact .binds hbinds
      · exact .kept (ih hbefore) hkept

end Monitor

end SectionMonitor
