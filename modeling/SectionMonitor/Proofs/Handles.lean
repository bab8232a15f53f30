import SectionMonitor.Proofs.Agreement
import SectionMonitor.Proofs.Calls
import SectionMonitor.Proofs.Exclusivity
import SectionMonitor.Proofs.Merge

/-!
# Handles

A handle is given to a label when the label is first used, and it keeps naming that label until all
sections are forgotten. `HandleLaw` collects what a program can rely on: which handle a label has,
which section a handle leads to, and what an operation does to either. It holds of every monitor
that a program can get hold of.

The labels of a monitor only grow, and every operation adds those that it uses at their first use.
`Extends` says so with the same union of labels by which processes agree; the operations that use
several labels, merges and gathers, are compositions of registrations.
-/

namespace SectionMonitor

namespace Monitor

variable {m m' m'' : Monitor} {label : String} {used used' : List String}

/-! ## Labels at their first use -/

/-- What is united already is not changed by being united again. -/
theorem unionLabels_unionLabels_append (first others : List String) :
    unionLabels (unionLabels first ++ others) = unionLabels (first ++ others) := by
  rw [unionLabels_append, unionLabels_append, unionLabels_of_nodup (nodup_unionLabels first)]

/-- The labels of a monitor are followed by those that were used and are new, each at its first
use. -/
def Extends (m : Monitor) (used : List String) (m' : Monitor) : Prop :=
  m'.registry.labels = unionLabels (m.registry.labels ++ used)

theorem InStep.extends_of_eq (h : m.InStep) (hregistry : m'.registry = m.registry) :
    m.Extends [] m' := by
  rw [Extends, hregistry, List.append_nil, unionLabels_of_nodup h.nodup]

theorem Extends.trans (h : m.Extends used m') (h' : m'.Extends used' m'') :
    m.Extends (used ++ used') m'' := by
  rw [Extends, h', h, unionLabels_unionLabels_append, List.append_assoc]

theorem Extends.of_registry_eq (h : m.Extends used m') (hregistry : m''.registry = m'.registry) :
    m.Extends used m'' := by
  rw [Extends, hregistry, h]

/-- No label is lost and none comes to stand elsewhere. -/
theorem Extends.labels_prefix (h : m.Extends used m') (hin : m.InStep) :
    m.registry.labels <+: m'.registry.labels := by
  rw [h, unionLabels_append, unionLabels_of_nodup hin.nodup]
  exact List.prefix_append _ _

theorem InStep.extends_register (h : m.InStep) (label : String) :
    m.Extends [label] (m.register label) := by
  rw [Extends, unionLabels_append, unionLabels_of_nodup h.nodup]
  cases hlookup : m.lookup label with
  | some i =>
    have hmem : label ∈ m.registry.labels := by
      by_contra hmem
      rw [lookup, h.indexed.lookup_eq_none_iff.mpr hmem] at hlookup
      cases hlookup
    rw [register_of_known hlookup]
    simp [hmem]
  | none =>
    have hmem : label ∉ m.registry.labels := h.indexed.lookup_eq_none_iff.mp hlookup
    rw [labels_register_of_new hlookup]
    simp [hmem, List.eraseDups_cons]

theorem InStep.extends_registerAll (h : m.InStep) (labels : List String) :
    m.Extends labels (m.registerAll labels).1 := by
  induction labels generalizing m with
  | nil => exact h.extends_of_eq rfl
  | cons label rest ih => exact (h.extends_register label).trans (ih (h.register label))

theorem InStep.extends_setProperties (h : m.InStep) (label : String) (requested : Properties) :
    m.Extends [label] (m.setProperties label requested).monitor := by
  obtain ⟨-, hm⟩ | ⟨k, bound, -, -, -, hm⟩ := h.setProperties_cases label requested
  · exact hm ▸ h.extends_register label
  · exact (h.extends_register label).of_registry_eq (by rw [hm, registry_modifySection])

theorem InStep.extends_start (h : m.InStep) (here : Surroundings) (label : String) :
    m.Extends [label] (m.start here label).monitor := by
  obtain ⟨-, -, hm⟩ | ⟨-, -, -, -, -, hm⟩ | ⟨-, -, -, hm⟩ := h.start_cases here label
  · exact hm ▸ h.extends_register label
  · exact hm ▸ h.extends_register label
  · obtain ⟨k, hk, -⟩ := h.exists_section_register label
    rw [hm, hk]
    exact (h.extends_register label).of_registry_eq rfl

theorem InStep.extends_stop (h : m.InStep) (here : Surroundings) (label : String) (work : Work) :
    m.Extends [] (m.stop here label work).monitor := by
  obtain ⟨-, -, hm⟩ | ⟨k, since, snapshots, -, -, -, -, hm⟩ := h.stop_cases here label work
  · exact h.extends_of_eq (by rw [hm])
  · exact h.extends_of_eq (by rw [hm, registry_closeInterval])

theorem InStep.extends_reset (h : m.InStep) (label : String) :
    m.Extends [] (m.reset label).monitor := by
  refine h.extends_of_eq ?_
  obtain ⟨-, -, hm⟩ | ⟨-, hm⟩ | ⟨k, -, -, -, hm⟩ := h.reset_cases label
  · rw [hm]
  · rw [hm]
  · rw [hm, registry_modifySection]

theorem InStep.extends_declareAll (h : m.InStep) (shares : List Section) :
    m.Extends (shares.map Section.label) (m.declareAll shares) := by
  induction shares generalizing m with
  | nil => exact h.extends_of_eq rfl
  | cons s rest ih =>
    have hfirst : m.Extends [s.label] (m.perform s.declaration).monitor := by
      by_cases hexplicit : s.binding = .explicit
      · rw [perform_declaration_of_explicit hexplicit]
        exact h.extends_setProperties s.label s.properties
      · rw [perform_declaration_of_implicit hexplicit]
        exact h.extends_register s.label
    exact hfirst.trans (ih (h.perform s.declaration))

/-! ## The labels that an operation uses -/

/-- The labels that a call makes known. -/
def Call.uses : Call → List String
  | .resolve label => [label]
  | .setProperties label _ => [label]
  | .start _ label => [label]
  | _ => []

/-- A merge uses the labels of the replicas in order, up to a conflict if it is refused. -/
def MergeUses (replicas : List Monitor) (finished : Prop) (used : List String) : Prop :=
  used <+: (replicas.flatMap sections).map Section.label ∧
    (finished → used = (replicas.flatMap sections).map Section.label)

/-- These are the labels that the operation uses, in order. Which ones a gather uses is up to the
other processes. -/
def Uses (m : Monitor) : Operation → List String → Prop
  | .call c, used => used = c.uses
  | .replica _, used => used = []
  | .merge replicas, used => MergeUses replicas ((m.merge replicas).result = .ok ()) used
  | .parallel here body, used =>
    MergeUses (((m.crew here).mapIdx fun thread r ↦ body thread r.1).map Prod.fst)
      ((m.parallel here body).ending = .finished) used
  | .gather _ _, _ => True

theorem InStep.extends_merge (h : m.InStep) (replicas : List Monitor) :
    ∃ used, MergeUses replicas ((m.merge replicas).result = .ok ()) used ∧
      m.Extends used (m.merge replicas).monitor := by
  obtain ⟨v, hv, hleft⟩ | ⟨-, -, hm⟩ := h.merge_cases replicas
  · rw [hv]
    generalize (m.merge replicas).monitor = left at hleft
    cases hleft with
    | running hs => exact ⟨[], ⟨List.nil_prefix, by simp⟩, h.extends_of_eq rfl⟩
    | @conflict before rest s hidle hshares hexplicit hrefused hkeeps =>
      refine ⟨before.map Section.label ++ [s.label], ⟨?_, by simp⟩,
        (h.extends_declareAll before).trans ((h.declareAll before).extends_register s.label)⟩
      rw [hshares, List.map_append, List.map_cons]
      exact (List.prefix_append_right_inj _).mpr (List.prefix_append [s.label] _)
  · refine ⟨_, ⟨List.prefix_rfl, fun _ ↦ rfl⟩, ?_⟩
    rw [hm]
    exact (h.extends_declareAll _).of_registry_eq rfl

theorem InStep.extends_parallel (h : m.InStep) (here : Surroundings)
    (body : ℕ → Monitor → Monitor × Ending) :
    ∃ used, m.Uses (.parallel here body) used ∧ m.Extends used (m.parallel here body).monitor := by
  obtain ⟨d, -, hunfinished, hend, hm⟩ | ⟨-, hend, hm⟩ :=
    m.join_cases ((m.crew here).mapIdx fun thread r ↦ body thread r.1)
  · refine ⟨[], ⟨List.nil_prefix, fun hfinished ↦ ?_⟩, h.extends_of_eq (by rw [parallel, hm])⟩
    exact absurd (hend.symm.trans hfinished) hunfinished
  · obtain ⟨used, ⟨hinitial, hall⟩, hext⟩ := h.extends_merge
      (((m.crew here).mapIdx fun thread r ↦ body thread r.1).map Prod.fst)
    refine ⟨used, ⟨hinitial, fun hfinished ↦ hall ?_⟩, by rw [parallel, hm]; exact hext⟩
    have hresult := hend.symm.trans hfinished
    cases hmerge : (m.merge _).result with
    | ok a => rfl
    | error v => simp [hmerge, Ending.ofResult] at hresult

/-- **What an operation does to the labels.** All but forgetting all sections adds the labels that
it uses, each at its first use. -/
theorem InStep.extends_after (h : m.InStep) (op : Operation)
    (hkept : ∀ now, op = .call (.resetAll now) → (m.resetAll now).result ≠ .ok ()) :
    ∃ used, m.Uses op used ∧ m.Extends used (m.after op) := by
  cases op with
  | call c =>
    refine ⟨c.uses, rfl, ?_⟩
    cases c with
    | resolve label => exact h.extends_register label
    | setProperties label requested => exact h.extends_setProperties label requested
    | start here label => exact h.extends_start here label
    | stop here label work => exact h.extends_stop here label work
    | reset label => exact h.extends_reset label
    | resetAll now =>
      obtain ⟨-, hm⟩ | ⟨-, hresult, -⟩ := m.resetAll_cases now
      · exact h.extends_of_eq (by rw [after, Monitor.perform, Outcome.monitor_map, hm])
      · exact absurd hresult (hkept now rfl)
  | replica thread => exact ⟨[], rfl, h.extends_of_eq rfl⟩
  | merge replicas => exact h.extends_merge replicas
  | parallel here body => exact h.extends_parallel here body
  | gather now t =>
    obtain hm | ⟨-, -, labels, hm⟩ := m.gather_cases now t
    · exact ⟨[], trivial, h.extends_of_eq (by rw [hm])⟩
    · refine ⟨labels, trivial, ?_⟩
      have hext := (h.sealed now).extends_registerAll labels
      rw [Extends, registry_sealed] at hext
      rw [hm]
      exact hext

theorem InStep.label?_after (h : m.InStep) {op : Operation}
    (hkept : ∀ now, op = .call (.resetAll now) → (m.resetAll now).result ≠ .ok ()) {i : Index}
    (hlabel : m.label? i = some label) : (m.after op).label? i = some label := by
  obtain ⟨used, -, hext⟩ := h.extends_after op hkept
  obtain ⟨_ | k⟩ := i
  · exact hlabel
  · obtain ⟨hlt, rfl⟩ := List.getElem?_eq_some_iff.mp hlabel
    exact List.prefix_iff_getElem?.mp (hext.labels_prefix h) k hlt

/-- A handle keeps its label through any operations, as long as all sections are not forgotten. -/
theorem InStep.label?_run (h : m.InStep) (ops : List Operation)
    (hkept : ∀ before now rest, ops = before ++ .call (.resetAll now) :: rest →
      ((m.run before).resetAll now).result ≠ .ok ())
    (i : Index) (label : String) (hlabel : m.label? i = some label) :
    (m.run ops).label? i = some label := by
  induction ops using List.reverseRecOn with
  | nil => exact hlabel
  | append_singleton ops op ih =>
    have hbefore := ih fun before now rest hops ↦
      hkept before now (rest ++ [op]) (by rw [hops, List.append_assoc, List.cons_append])
    rw [run_append]
    exact ((run_edits h ops).inStep h).label?_after
      (fun now hop ↦ hkept ops now [] (by rw [hop])) hbefore

/-! ## The root section -/

/-- The operation lets the root section begin again, or end. -/
def Operation.TouchesRoot : Operation → Prop
  | .call (.resetAll _) => True
  | .gather _ _ => True
  | _ => False

theorem InStep.rootSection_merge (h : m.InStep) (replicas : List Monitor) :
    (m.merge replicas).monitor.rootSection = m.rootSection := by
  obtain ⟨v, -, hleft⟩ | ⟨-, hkeeps, hm⟩ := h.merge_cases replicas
  · generalize (m.merge replicas).monitor = left at hleft
    cases hleft with
    | running hs => rfl
    | conflict hidle hshares hexplicit hrefused hkeeps => exact hkeeps.rootSection_eq
  · rw [hm]
    exact hkeeps.rootSection_eq

/-- No operation on labels changes the root section. -/
theorem InStep.rootSection_after (h : m.InStep) {op : Operation} (hop : ¬op.TouchesRoot) :
    (m.after op).rootSection = m.rootSection := by
  have hregister (label : String) : (m.register label).rootSection = m.rootSection :=
    (Keeps.register m label).rootSection_eq
  cases op with
  | call c =>
    have hstep := h.callStep c
    rw [after]
    generalize (m.perform c).monitor = m' at hstep
    cases hstep with
    | nothing | closeInterval | clear => rfl
    | register label => exact hregister label
    | bind | openInterval => exact hregister _
    | restart => exact absurd trivial hop
  | replica thread => rfl
  | merge replicas => exact h.rootSection_merge replicas
  | parallel here body =>
    obtain ⟨d, -, -, -, hm⟩ | ⟨-, -, hm⟩ :=
      m.join_cases ((m.crew here).mapIdx fun thread r ↦ body thread r.1)
    · rw [after, parallel, hm]
    · rw [after, parallel, hm]
      exact h.rootSection_merge _
  | gather now t => exact absurd trivial hop

/-- The root section keeps its label, which leads nowhere in a look-up. -/
theorem Edit.label_rootSection (e : Edit m m') : m'.rootSection.label = m.rootSection.label := by
  cases e with
  | register hnew => rw [(Keeps.register m _).rootSection_eq]
  | sealRoot now hopen hidle =>
    rw [sealed, stopRoot]
    split <;> rfl
  | bind hs hbound => rfl
  | openInterval here hs hidle hfree => rfl
  | closeInterval here work hs hrunning => rfl
  | clear hs hidle => rfl
  | restart now hidle => rfl
  | absorb shares => rfl
  | finalize hsealed => rfl

theorem Reachable.label_rootSection (h : m.Reachable) : m.rootSection.label = "Root" := by
  refine h.invariant (fun settings adapterEvents traced now ↦ ?_) (fun m thread hm _ ↦ ?_)
    fun _ _ step hlabel ↦ step.label_rootSection.trans hlabel
  · rw [Monitor.build]
    split <;> rfl
  · rw [hm.inStep.replica_eq]
    rfl

/-! ## The handle of the running exclusive section -/

/-- The token, if it is taken, is the handle of a section, which may run or not. -/
def TokenKnown (m : Monitor) : Prop :=
  ∀ i, m.token = some i → ∃ k < m.sections.length, i = ⟨k + 1⟩

theorem TokenKnown.of_eq (h : m.TokenKnown) (htoken : m'.token = m.token)
    (hlength : m.sections.length ≤ m'.sections.length) : m'.TokenKnown := by
  intro i hi
  obtain ⟨k, hk, rfl⟩ := h i (htoken.symm.trans hi)
  exact ⟨k, Nat.lt_of_lt_of_le hk hlength, rfl⟩

theorem Edit.tokenKnown (e : Edit m m') (h : m.TokenKnown) : m'.TokenKnown := by
  cases e with
  | register hnew =>
    exact h.of_eq (token_register m _) (by rw [sections_register_of_new hnew]; simp)
  | bind hs hbound => exact h.of_eq rfl (by simp)
  | @openInterval k s here hs hidle hfree =>
    intro i hi
    have htoken : (if (m.sectionAt ⟨k + 1⟩).exclusive then some ⟨k + 1⟩ else m.token) = some i := hi
    rw [sections_openInterval, List.length_modify]
    split_ifs at htoken with hex
    · obtain ⟨hlt, -⟩ := List.getElem?_eq_some_iff.mp hs
      exact ⟨k, hlt, (Option.some.inj htoken).symm⟩
    · exact h i htoken
  | @closeInterval k s since snapshots here work hs hrunning =>
    intro i hi
    rw [token_closeInterval] at hi
    rw [sections_closeInterval, List.length_modify]
    split_ifs at hi with hstopped
    exact h i hi
  | clear hs hidle => exact h.of_eq rfl (by simp)
  | restart now hidle => exact fun i hi ↦ absurd hi (by simp [restarted])
  | absorb shares => exact h.of_eq rfl (by simp)
  | sealRoot now hopen hidle => exact h.of_eq (token_sealed m now) (by simp)
  | finalize hsealed => exact h.of_eq rfl (Nat.le_refl _)

/-- Also in a replica, whose token is that of its parent. -/
theorem Reachable.tokenKnown (h : m.Reachable) : m.TokenKnown := by
  refine h.invariant (fun settings adapterEvents traced now ↦ ?_) (fun m thread hm ih ↦ ?_)
    fun _ _ step ↦ step.tokenKnown
  · intro i hi
    rw [Monitor.build] at hi
    split at hi <;> cases hi
  · rw [hm.inStep.replica_eq]
    exact ih.of_eq rfl (by simp)

/-! ## What a program can rely on -/

/-- Handles, labels and sections of a monitor, and what becomes of them. -/
structure HandleLaw (m : Monitor) : Prop where
  /-- There are as many sections as handles, and each has the label of its handle. -/
  size_eq : m.registry.size = m.sections.length + 1
  label?_eq : ∀ i, m.label? i = (m.sectionAt? i).map Section.label
  nodup : m.registry.labels.Nodup
  /-- The handle of the root section is not found under any label, not even its own. -/
  lookup_eq_some_iff : ∀ label i, m.lookup label = some i ↔ i ≠ .root ∧ m.label? i = some label
  /-- A handle that is found leads to a section, and so does one that is given out. -/
  exists_section : ∀ label i, m.lookup label = some i →
    ∃ s, m.sectionAt? i = some s ∧ s.label = label
  sectionAt?_register : ∀ label,
    (m.register label).sectionAt? (m.indexOf label) = some (m.sectionOf label)
  /-- A new label gets the next number. -/
  indexOf_eq : ∀ label, m.lookup label = none → m.indexOf label = ⟨m.sections.length + 1⟩
  /-- A call answers with the handle of the label that it was asked for. -/
  lookup_perform : ∀ c i, (m.perform c).result = .ok (some i) →
    ∃ label, c.uses = [label] ∧ i = m.indexOf label ∧ i ≠ .root ∧
      (m.perform c).monitor.lookup label = some i
  /-- New handles are given out in the order of first use. -/
  extends_after : ∀ op, (∀ now, op = .call (.resetAll now) → (m.resetAll now).result ≠ .ok ()) →
    ∃ used, m.Uses op used ∧ m.Extends used (m.after op)
  /-- A handle keeps its label until all sections are forgotten. -/
  label?_run : ∀ ops, (∀ before now rest, ops = before ++ .call (.resetAll now) :: rest →
      ((m.run before).resetAll now).result ≠ .ok ()) →
    ∀ i label, m.label? i = some label → (m.run ops).label? i = some label
  labels_resetAll : ∀ now, (m.resetAll now).result = .ok () →
    (m.resetAll now).monitor.registry.labels = []
  lookup_replica : ∀ thread label, (m.replica thread).lookup label = m.lookup label
  rootSection_after : ∀ op : Operation, ¬op.TouchesRoot → (m.after op).rootSection = m.rootSection
  /-- An overlap is reported with the label of a section. -/
  exclusiveOverlap_active : ∀ here label l active,
    (m.start here label).result = .error (.exclusiveOverlap l active) →
      ∃ i, m.token = some i ∧ m.label? i = some active

theorem InStep.label?_of_section (h : m.InStep) {k : ℕ} {s : Section}
    (hs : m.sections[k]? = some s) : m.label? ⟨k + 1⟩ = some s.label :=
  h.getElem?_labels hs

theorem InStep.lookup_eq_some_iff (h : m.InStep) (label : String) (i : Index) :
    m.lookup label = some i ↔ i ≠ .root ∧ m.label? i = some label := by
  constructor
  · intro hi
    obtain ⟨k, s, rfl, hs, rfl⟩ := h.exists_section_of_lookup hi
    exact ⟨by simp [Index.root], h.label?_of_section hs⟩
  · rintro ⟨hroot, hlabel⟩
    obtain ⟨_ | k⟩ := i
    · exact absurd rfl hroot
    · exact h.indexed.lookup_of_getElem? h.nodup hlabel

theorem InStep.lookup_register (h : m.InStep) (label : String) :
    (m.register label).lookup label = some (m.indexOf label) := by
  obtain ⟨k, hk, hs⟩ := h.exists_section_register label
  rw [hk, (h.register label).lookup_eq_some_iff, (h.register label).label?_of_section hs,
    label_sectionOf]
  exact ⟨by simp [Index.root], rfl⟩

/-- Only calls that make a label known answer with a handle. -/
theorem InStep.lookup_perform (h : m.InStep) (c : Call) (i : Index)
    (hi : (m.perform c).result = .ok (some i)) :
    ∃ label, c.uses = [label] ∧ i = m.indexOf label ∧ i ≠ .root ∧
      (m.perform c).monitor.lookup label = some i := by
  have hroot (label : String) : m.indexOf label ≠ .root :=
    (((h.register label).lookup_eq_some_iff label _).mp (h.lookup_register label)).1
  have hanswer {label : String} {o : Outcome Index} (ho : (o.map some).result = .ok (some i))
      (hresult : ∀ j, o.result = .ok j → j = m.indexOf label)
      (hregistry : o.monitor.registry = (m.register label).registry) :
      i = m.indexOf label ∧ i ≠ .root ∧ o.monitor.lookup label = some i := by
    cases hr : o.result with
    | error v => simp [hr, Except.map] at ho
    | ok j =>
      obtain rfl : j = i := by simpa [hr, Except.map] using ho
      obtain rfl := hresult j hr
      refine ⟨rfl, hroot label, ?_⟩
      rw [lookup, hregistry, ← lookup, h.lookup_register]
  cases c with
  | resolve label => exact ⟨label, rfl, hanswer hi (fun j hj ↦ (Except.ok.inj hj).symm) rfl⟩
  | setProperties label requested =>
    refine ⟨label, rfl, ?_⟩
    obtain ⟨⟨v, hr⟩, -⟩ | ⟨k, bound, -, -, hr, hm⟩ := h.setProperties_cases label requested
    · simp [Monitor.perform, hr, Except.map] at hi
    · exact hanswer hi (fun j hj ↦ Except.ok.inj (hj.symm.trans hr)) (by rw [hm]; rfl)
  | start here label =>
    refine ⟨label, rfl, ?_⟩
    obtain ⟨-, hr, -⟩ | ⟨_, -, -, -, hr, -⟩ | ⟨-, -, hr, hm⟩ := h.start_cases here label
    · simp [Monitor.perform, hr, Except.map] at hi
    · simp [Monitor.perform, hr, Except.map] at hi
    · obtain ⟨k, hk, -⟩ := h.exists_section_register label
      exact hanswer hi (fun j hj ↦ Except.ok.inj (hj.symm.trans hr)) (by rw [hm, hk]; rfl)
  | stop here label work =>
    cases hr : (m.stop here label work).result <;> simp [Monitor.perform, hr, Except.map] at hi
  | reset label =>
    cases hr : (m.reset label).result <;> simp [Monitor.perform, hr, Except.map] at hi
  | resetAll now =>
    cases hr : (m.resetAll now).result <;> simp [Monitor.perform, hr, Except.map] at hi

/-- The section that bars a start is one that the monitor knows. -/
theorem InStep.label?_of_exclusiveOverlap (h : m.InStep) (htoken : m.TokenKnown)
    (here : Surroundings) (label l active : String)
    (hrefused : (m.start here label).result = .error (.exclusiveOverlap l active)) :
    ∃ i, m.token = some i ∧ m.label? i = some active := by
  obtain ⟨-, hr, -⟩ | ⟨i, -, -, hi, hr, -⟩ | ⟨-, -, hr, -⟩ := h.start_cases here label
  · cases hr.symm.trans hrefused
  · obtain ⟨k, hk, rfl⟩ := htoken i hi
    have hs := List.getElem?_eq_getElem hk
    refine ⟨⟨k + 1⟩, hi, ?_⟩
    rw [hr, h.label?_register hs, Option.getD_some] at hrefused
    cases hrefused
    exact h.label?_of_section hs
  · cases hr.symm.trans hrefused

/-- **Handles stay in step with sections.** The law holds of every monitor that a program can get
hold of, replicas and their replicas included, whatever has been asked of it. -/
theorem handles_stay_in_step (h : m.Reachable) : m.HandleLaw where
  size_eq := by rw [Registry.size, h.inStep.labels_eq, List.length_map]
  label?_eq i := by
    obtain ⟨_ | k⟩ := i
    · exact congrArg some h.label_rootSection.symm
    · change m.registry.labels[k]? = m.sections[k]?.map Section.label
      rw [h.inStep.labels_eq, List.getElem?_map]
  nodup := h.inStep.nodup
  lookup_eq_some_iff := h.inStep.lookup_eq_some_iff
  exists_section label i hi := by
    obtain ⟨k, s, rfl, hs, hlabel⟩ := h.inStep.exists_section_of_lookup hi
    exact ⟨s, hs, hlabel⟩
  sectionAt?_register label := by
    obtain ⟨k, hk, hs⟩ := h.inStep.exists_section_register label
    rw [hk]
    exact hs
  indexOf_eq label := h.inStep.indexOf_of_new
  lookup_perform := h.inStep.lookup_perform
  extends_after := h.inStep.extends_after
  label?_run := h.inStep.label?_run
  labels_resetAll now hresult := by
    obtain ⟨⟨v, hv⟩, -⟩ | ⟨-, -, hm⟩ := m.resetAll_cases now
    · cases hv.symm.trans hresult
    · rw [hm]
      rfl
  lookup_replica thread label := by
    rw [h.inStep.replica_eq]
    rfl
  rootSection_after op := h.inStep.rootSection_after
  exclusiveOverlap_active := h.inStep.label?_of_exclusiveOverlap h.tokenKnown

/-- A replica of a monitor that has a section by the name of the root section, made while another
section runs. -/
def namesake : Monitor :=
  ((build {} none false .zero).run
    [.call (.resolve "Root"), .call (.start (.plain .zero) "halo")]).replica 1

/-- The label of the root section is a label like any other. -/
theorem namesake_stays_in_step :
    namesake.Reachable ∧ namesake.HandleLaw ∧ namesake.lookup "Root" = some ⟨1⟩ ∧
      namesake.label? .root = some "Root" := by
  have h : namesake.Reachable := ((Reachable.build {} none false .zero).run _).replica 1
  exact ⟨h, handles_stay_in_step h, by decide +kernel, rfl⟩

end Monitor

end SectionMonitor
