import SectionMonitor.Proofs.Bindings
import SectionMonitor.Proofs.MergeSums

/-!
# Replicas in any order

Replicas are folded back one after the other, and each of them meets what the ones before it have
left: labels that are known by then, and properties that are bound by then. Still it does not matter
in which order they come (`merge_in_any_order`).

Whether a binding by name is refused can be said without an order: the monitor accepts the bindings
of all replicas one by one, and no two of them ask for different properties of a label
(`Monitor.Agrees`). A binding that has been taken over makes the section refuse the bindings it
disagrees with, and no others (`Section.accepts_declaredBy_iff`); this is the step of the induction.
If all agree, taking over two of them in turn is the same in either order, and the measurements are
maxima and sums. Only volumes are added up in the order of the replicas, which is felt in the last
digits.
-/

namespace SectionMonitor

/-! ## Declarations of one label -/

namespace Section

variable {s a b : Section}

/-- Nothing that is known of the label stands against the properties that the share was bound to by
name, if it was. -/
def Accepts (s share : Section) : Prop :=
  share.binding = .explicit → ∃ bound, s.bind? share.properties = some bound

/-- Two shares of a label were not bound to different properties by name. -/
def Consents (a b : Section) : Prop :=
  a.binding = .explicit → b.binding = .explicit → a.properties = b.properties

theorem Consents.symm (h : a.Consents b) : b.Consents a := fun hb ha ↦ (h ha hb).symm

theorem declaredBy_of_implicit (ha : a.binding ≠ .explicit) : s.declaredBy a = s := by
  rw [declaredBy, if_neg ha]

theorem declaredBy_of_accepts (h : s.Accepts a) (ha : a.binding = .explicit) :
    s.declaredBy a = { s with properties := a.properties, binding := .explicit } := by
  obtain ⟨bound, hbound⟩ := h ha
  rw [declaredBy, if_pos ha, hbound, Option.getD_some, Monitor.eq_of_bind? hbound]

/-- Properties that have been taken over were accepted: refused ones leave others. -/
theorem accepts_of_declaredBy
    (h : a.binding = .explicit → (s.declaredBy a).properties = a.properties) : s.Accepts a := by
  intro ha
  have hproperties := h ha
  by_contra hrefused
  have hnone : s.bind? a.properties = none := by
    rw [Option.eq_none_iff_forall_ne_some]
    exact fun bound hbound ↦ hrefused ⟨bound, hbound⟩
  rw [declaredBy, if_pos ha, hnone, Option.getD_none] at hproperties
  exact hrefused (exists_bind?_iff.mpr (.inl hproperties))

/-- **One declaration and the next one.** After a share has been declared, another one is accepted
if it would have been accepted in its place and both consent. -/
theorem accepts_declaredBy_iff (h : s.Accepts a) :
    (s.declaredBy a).Accepts b ↔ s.Accepts b ∧ a.Consents b := by
  by_cases ha : a.binding = .explicit
  · rw [declaredBy_of_accepts h ha]
    constructor
    · intro hnext
      have hsame (hb : b.binding = .explicit) : a.properties = b.properties := by
        -- The section is bound by name now, so only its own properties are accepted.
        rcases exists_bind?_iff.mp (hnext hb) with hsame | ⟨himplicit, -⟩
        · exact hsame
        · cases himplicit
      exact ⟨fun hb ↦ hsame hb ▸ h ha, fun _ hb ↦ hsame hb⟩
    · rintro ⟨-, hconsents⟩ hb
      exact exists_bind?_iff.mpr (.inl (hconsents ha hb))
  · rw [declaredBy_of_implicit ha]
    constructor
    · intro hnext
      exact ⟨hnext, fun ha' ↦ absurd ha' ha⟩
    · exact And.left

/-- **Two declarations in either order.** -/
theorem declaredBy_right_comm (h : a.Consents b) (s : Section) :
    (s.declaredBy a).declaredBy b = (s.declaredBy b).declaredBy a := by
  by_cases ha : a.binding = .explicit
  · by_cases hb : b.binding = .explicit
    · -- Both declare the same, so the two sides are the same twice.
      have hsame (t : Section) : t.declaredBy a = t.declaredBy b := by
        rw [declaredBy, declaredBy, if_pos ha, if_pos hb, h ha hb]
      rw [hsame, hsame]
    · rw [declaredBy_of_implicit hb, declaredBy_of_implicit hb]
  · rw [declaredBy_of_implicit ha, declaredBy_of_implicit ha]

end Section

/-! ## Measurements of one label -/

theorem Reading.ext_count {a b : Reading} (hlength : a.length = b.length)
    (hcount : ∀ event, (a.count event).toNat = (b.count event).toNat) : a = b := by
  refine List.ext_getElem hlength fun event ha hb ↦ ?_
  have heq := UInt64.toNat_inj.mp (hcount event)
  rwa [count, count, List.getD_eq_getElem?_getD, List.getD_eq_getElem?_getD,
    List.getElem?_eq_getElem ha, List.getElem?_eq_getElem hb] at heq

/-- **Shares in any order.** They add up to the same time, calls and counts. -/
theorem Totals.absorb_perm (old : Totals) {shares shares' : List Totals}
    (hperm : shares.Perm shares') :
    old.absorb (shares.foldl besides {})
      = { old.absorb (shares'.foldl besides {}) with
          volume := (old.absorb (shares.foldl besides {})).volume } := by
  have hnew := addsUp_absorb old shares
  have hnew' := addsUp_absorb old shares'
  generalize old.absorb (shares.foldl besides {}) = new at hnew ⊢
  generalize old.absorb (shares'.foldl besides {}) = new' at hnew' ⊢
  have helapsed : new.elapsed = new'.elapsed := by
    rw [Duration.mk.injEq, hnew.elapsed, hnew'.elapsed, (hperm.map _).foldl_eq]
  have hcalls : new.calls = new'.calls := by
    apply UInt64.toNat_inj.mp
    rw [hnew.calls, hnew'.calls, (hperm.map _).foldl_eq]
  have hcounters : new.counters = new'.counters := by
    apply Reading.ext_count
    · rw [hnew.events, hnew'.events, (hperm.map _).foldl_eq]
    · intro event
      rw [hnew.counters, hnew'.counters, (hperm.map _).sum_eq]
  cases new
  cases new'
  simp only at helapsed hcalls hcounters
  rw [helapsed, hcalls, hcounters]

namespace Monitor

variable {m : Monitor} {replicas replicas' : List Monitor} {shares shares' : List Section}

/-! ## Whether anything is refused -/

/-- The monitor accepts all shares one by one, and shares of the same label consent. -/
structure Agrees (m : Monitor) (shares : List Section) : Prop where
  accepted : ∀ a ∈ shares, (m.sectionOf a.label).Accepts a
  consenting : ∀ a ∈ shares, ∀ b ∈ shares, a.label = b.label → a.Consents b

theorem Agrees.perm (h : m.Agrees shares) (hperm : shares.Perm shares') : m.Agrees shares' where
  accepted a ha := h.accepted a (hperm.mem_iff.mpr ha)
  consenting a ha b hb := h.consenting a (hperm.mem_iff.mpr ha) b (hperm.mem_iff.mpr hb)

/-- **The first share and the others.** Once it has been declared, the others have to agree with it
as well as with each other. -/
theorem InStep.agrees_cons_iff (h : m.InStep) {s : Section} {rest : List Section}
    (haccepts : (m.sectionOf s.label).Accepts s) :
    (m.perform s.declaration).monitor.Agrees rest ↔ m.Agrees (s :: rest) := by
  -- What a later share meets: the section as it was, or, under the same label, as it is declared.
  have hlater (a : Section) :
      ((m.perform s.declaration).monitor.sectionOf a.label).Accepts a ↔
        (m.sectionOf a.label).Accepts a ∧ (s.label = a.label → s.Consents a) := by
    rw [h.sectionOf_declaration]
    split_ifs with hlabel
    · rw [hlabel] at haccepts
      simp only [Section.accepts_declaredBy_iff haccepts, hlabel, true_imp_iff]
    · simp only [hlabel, false_imp_iff, and_true]
  constructor
  · intro hrest
    have hmeets (a : Section) (ha : a ∈ rest) := (hlater a).mp (hrest.accepted a ha)
    refine ⟨fun a ha ↦ ?_, fun a ha b hb hlabel ↦ ?_⟩
    · rcases List.mem_cons.mp ha with rfl | ha
      · exact haccepts
      · exact (hmeets a ha).1
    · rcases List.mem_cons.mp ha with rfl | ha' <;> rcases List.mem_cons.mp hb with rfl | hb'
      · exact fun _ _ ↦ rfl
      · exact (hmeets b hb').2 hlabel
      · exact ((hmeets a ha').2 hlabel.symm).symm
      · exact hrest.consenting a ha' b hb' hlabel
  · intro hall
    refine ⟨fun a ha ↦ (hlater a).mpr ⟨?_, ?_⟩, fun a ha b hb ↦ ?_⟩
    · exact hall.accepted a (List.mem_cons_of_mem s ha)
    · exact hall.consenting s List.mem_cons_self a (List.mem_cons_of_mem s ha)
    · exact hall.consenting a (List.mem_cons_of_mem s ha) b (List.mem_cons_of_mem s hb)

/-- **When nothing is refused.** -/
theorem InStep.reconcile_ok_iff (h : m.InStep) (shares : List Section) :
    (m.reconcile shares).result = .ok () ↔ m.Agrees shares := by
  induction shares generalizing m with
  | nil => exact ⟨fun _ ↦ ⟨by simp, by simp⟩, fun _ ↦ rfl⟩
  | cons s rest ih =>
    obtain ⟨hexplicit, hrefused, hend⟩ | ⟨-, hbound, hnext⟩ := h.reconcile_cons_cases s
    · rw [(hend rest).1]
      constructor
      · intro hok
        cases hok
      · intro hagrees
        obtain ⟨bound, hbound⟩ := hagrees.accepted s List.mem_cons_self hexplicit
        exact absurd (hrefused.symm.trans hbound) (by simp)
    · have haccepts : (m.sectionOf s.label).Accepts s := by
        apply Section.accepts_of_declaredBy
        intro hexplicit
        have hnamed := (h.perform s.declaration).boundAs_iff.mp (hbound hexplicit)
        rw [named?, h.sectionOf_declaration, if_pos rfl, Section.named?_eq_some_iff] at hnamed
        exact hnamed.2
      rw [(hnext rest).1, ih (h.perform s.declaration), h.agrees_cons_iff haccepts]

theorem result_merge_of_running {r : Monitor} (hr : r ∈ replicas) (hrunning : r.running? ≠ none) :
    ∃ label, (m.merge replicas).result = .error (.runningDuringMerge label) := by
  cases hfirst : replicas.findSome? running? with
  | none => exact absurd (List.findSome?_eq_none_iff.mp hfirst r hr) hrunning
  | some s => exact ⟨s.label, by rw [merge, hfirst]; rfl⟩

theorem InStep.result_merge_of_agrees (h : m.InStep) (hidle : ∀ r ∈ replicas, r.running? = none)
    (hagrees : m.Agrees (replicas.flatMap sections)) : (m.merge replicas).result = .ok () := by
  have hok := (h.reconcile_ok_iff (replicas.flatMap sections)).mpr hagrees
  simp only [merge, List.findSome?_eq_none_iff.mpr hidle, hok]

theorem InStep.result_merge_of_not_agrees (h : m.InStep)
    (hidle : ∀ r ∈ replicas, r.running? = none)
    (hdisagrees : ¬m.Agrees (replicas.flatMap sections)) :
    ∃ label existing requested, (m.merge replicas).result
      = .error (.conflictingProperties label existing requested) := by
  rw [← h.reconcile_ok_iff] at hdisagrees
  obtain ⟨hok, -⟩ | ⟨before, s, _, -, -, -, herror, -⟩ :=
    h.reconcile_cases (replicas.flatMap sections)
  · exact absurd hok hdisagrees
  · refine ⟨s.label, ((m.declareAll before).sectionOf s.label).properties, s.properties, ?_⟩
    simp only [merge, List.findSome?_eq_none_iff.mpr hidle, herror]

/-! ## What comes of it -/

/-- Agreeing declarations may come in any order. -/
theorem InStep.sectionOf_declareAll_perm (h : m.InStep) (hagrees : m.Agrees shares)
    (hperm : shares.Perm shares') (label : String) :
    (m.declareAll shares).sectionOf label = (m.declareAll shares').sectionOf label := by
  rw [h.sectionOf_declareAll, h.sectionOf_declareAll]
  refine (hperm.filter _).foldl_eq' (fun a ha b hb s ↦ ?_) _
  obtain ⟨ha, hlabel⟩ := List.mem_filter.mp ha
  obtain ⟨hb, hlabel'⟩ := List.mem_filter.mp hb
  have hsame : a.label = b.label := by
    rw [of_decide_eq_true hlabel, of_decide_eq_true hlabel']
  exact Section.declaredBy_right_comm (hagrees.consenting a ha b hb hsame) s

/-- Shares in any order add the same to a section, but for the volume. -/
theorem absorb_perm (s : Section) {measured measured' : List Totals}
    (hperm : measured.Perm measured') :
    s.absorb measured
      = { s.absorb measured' with
          totals := { (s.absorb measured').totals with
            volume := (s.absorb measured).totals.volume } } := by
  have hempty : measured.isEmpty = measured'.isEmpty := by
    rw [Bool.eq_iff_iff, List.isEmpty_iff_length_eq_zero, List.isEmpty_iff_length_eq_zero,
      hperm.length_eq]
  rw [Section.absorb, Section.absorb, hempty]
  split_ifs
  · rfl
  · rw [s.totals.absorb_perm hperm]

/-- **A merged section** is the same for replicas in any order, but for its volume. -/
theorem InStep.sectionOf_merge_perm (h : m.InStep) (hperm : replicas.Perm replicas')
    (hagrees : m.Agrees (replicas.flatMap sections)) (hok : (m.merge replicas).result = .ok ())
    (hok' : (m.merge replicas').result = .ok ()) (label : String) :
    let s := (m.merge replicas).monitor.sectionOf label
    let t := (m.merge replicas').monitor.sectionOf label
    s = { t with totals := { t.totals with volume := s.totals.volume } } := by
  have hshares : (replicas.flatMap sections).Perm (replicas'.flatMap sections) :=
    hperm.flatMap_right sections
  rw [h.sectionOf_merge hok, h.sectionOf_merge hok', h.sectionOf_declareAll_perm hagrees hshares]
  exact absorb_perm _ ((hshares.filter _).map _)

theorem InStep.mem_labels_merge_iff (h : m.InStep) (hok : (m.merge replicas).result = .ok ())
    (label : String) :
    label ∈ (m.merge replicas).monitor.registry.labels ↔
      label ∈ m.registry.labels ∨ ∃ r ∈ replicas, ∃ s ∈ r.sections, s.label = label := by
  rw [(h.monitor_merge hok).2, registry_absorb, h.extends_declareAll, mem_unionLabels,
    List.mem_append, List.mem_map]
  simp only [List.mem_flatMap]
  constructor
  · rintro (hknown | ⟨s, ⟨r, hr, hs⟩, hlabel⟩)
    · exact .inl hknown
    · exact .inr ⟨r, hr, s, hs, hlabel⟩
  · rintro (hknown | ⟨r, hr, s, hs, hlabel⟩)
    · exact .inl hknown
    · exact .inr ⟨s, ⟨r, hr, hs⟩, hlabel⟩

/-- **Replicas in any order.** Two merges of the same replicas in different orders are both refused
because a replica runs, or both because properties are in conflict, or both succeed. Then the same
labels are known, and every section is the same but for its volume: it has the same properties and
binding, time, calls and counts. -/
theorem merge_in_any_order (h : m.Reachable) (hperm : replicas.Perm replicas') :
    let merge := m.merge replicas
    let merge' := m.merge replicas'
    (∃ label label', merge.result = .error (.runningDuringMerge label) ∧
        merge'.result = .error (.runningDuringMerge label')) ∨
      (∃ label existing requested label' existing' requested',
        merge.result = .error (.conflictingProperties label existing requested) ∧
        merge'.result = .error (.conflictingProperties label' existing' requested')) ∨
      (merge.result = .ok () ∧ merge'.result = .ok () ∧
        (∀ label, label ∈ merge.monitor.registry.labels ↔ label ∈ merge'.monitor.registry.labels) ∧
        ∀ label,
          let s := merge.monitor.sectionOf label
          let t := merge'.monitor.sectionOf label
          s = { t with totals := { t.totals with volume := s.totals.volume } }) := by
  intro merge merge'
  have hin := h.inStep
  have hshares : (replicas.flatMap sections).Perm (replicas'.flatMap sections) :=
    hperm.flatMap_right sections
  by_cases hidle : ∀ r ∈ replicas, r.running? = none
  · have hidle' : ∀ r ∈ replicas', r.running? = none := fun r hr ↦ hidle r (hperm.mem_iff.mpr hr)
    right
    by_cases hagrees : m.Agrees (replicas.flatMap sections)
    · have hok := hin.result_merge_of_agrees hidle hagrees
      have hok' := hin.result_merge_of_agrees hidle' (hagrees.perm hshares)
      refine .inr ⟨hok, hok', fun label ↦ ?_, hin.sectionOf_merge_perm hperm hagrees hok hok'⟩
      rw [hin.mem_labels_merge_iff hok, hin.mem_labels_merge_iff hok']
      simp only [hperm.mem_iff]
    · have hdisagrees : ¬m.Agrees (replicas'.flatMap sections) :=
        fun hagrees' ↦ hagrees (hagrees'.perm hshares.symm)
      obtain ⟨label, p, q, herror⟩ := hin.result_merge_of_not_agrees hidle hagrees
      obtain ⟨label', p', q', herror'⟩ := hin.result_merge_of_not_agrees hidle' hdisagrees
      exact .inl ⟨label, p, q, label', p', q', herror, herror'⟩
  · push Not at hidle
    obtain ⟨r, hr, hrunning⟩ := hidle
    obtain ⟨label, herror⟩ := result_merge_of_running hr hrunning
    obtain ⟨label', herror'⟩ := result_merge_of_running (hperm.mem_iff.mp hr) hrunning
    exact .inl ⟨label, label', herror, herror'⟩

/-- Three threads: two of them bind the same label in the same way, one after and one before its
first use, and the third one takes it as it is. -/
def consenting : List Monitor :=
  let halo : Operation := .call (.setProperties "halo" ⟨.communication, false⟩)
  [(undecided.replica 0).run (halo :: timed "halo" 5),
    (undecided.replica 1).run (timed "columns" 3 ++ timed "halo" 9),
    (undecided.replica 2).run (timed "rows" 4 ++ [halo])]

/-- Folded back in reverse order they leave the new labels with other handles, and the bound section
with the same properties and time. -/
theorem consenting_in_reverse :
    let merge := undecided.merge consenting
    let merge' := undecided.merge consenting.reverse
    undecided.Reachable ∧ consenting.Perm consenting.reverse ∧
      merge.result = .ok () ∧ merge'.result = .ok () ∧
      merge.monitor.registry.labels = ["halo", "columns", "rows"] ∧
      merge'.monitor.registry.labels = ["halo", "rows", "columns"] ∧
      (merge'.monitor.sectionOf "halo").properties = ⟨.communication, false⟩ ∧
      (merge'.monitor.sectionOf "halo").totals.elapsed = ⟨9⟩ := by
  intro merge merge'
  have hperm : consenting.Perm consenting.reverse := (List.reverse_perm consenting).symm
  have hok : merge.result = .ok () := by decide +kernel
  have hlabels : merge.monitor.registry.labels = ["halo", "columns", "rows"] := by decide +kernel
  have hlabels' : merge'.monitor.registry.labels = ["halo", "rows", "columns"] := by decide +kernel
  have hproperties : (merge.monitor.sectionOf "halo").properties = ⟨.communication, false⟩ := by
    decide +kernel
  have helapsed : (merge.monitor.sectionOf "halo").totals.elapsed = ⟨9⟩ := by decide +kernel
  obtain ⟨_, _, herror, -⟩ | ⟨_, _, _, _, _, _, herror, -⟩ | ⟨-, hok', -, hsections⟩ :=
    merge_in_any_order reachable_undecided hperm
  · exact absurd (hok.symm.trans herror) (by simp)
  · exact absurd (hok.symm.trans herror) (by simp)
  · have hhalo := hsections "halo"
    refine ⟨reachable_undecided, hperm, hok, hok', hlabels, hlabels', ?_, ?_⟩
    · exact (congrArg Section.properties hhalo).symm.trans hproperties
    · exact (congrArg (fun s ↦ s.totals.elapsed) hhalo).symm.trans helapsed

end Monitor

end SectionMonitor
