import SectionMonitor.Proofs.Edit
import SectionMonitor.Proofs.LabelBuffer

/-!
# What the processes of a job agree on

Rank zero unites the labels of all processes, and afterwards every process registers those that it
lacks. `Monitor.unionLabels` is the list of all labels without repetitions, each at its first
appearance; if one process comes first, its labels do. Registering them all keeps what each process
knows of every label, `Monitor.sectionOf`, and makes it available under the handle of the label.
-/

namespace SectionMonitor

namespace Monitor

variable {m : Monitor} {label : String} {labels : List String}

/-! ## The union of labels -/

/-- What is added to the labels seen so far: the new ones, each at its first appearance. -/
theorem foldl_unite (seen labels : List String) :
    labels.foldl (fun seen label ↦ if label ∈ seen then seen else seen ++ [label]) seen
      = seen ++ (labels.filter fun label ↦ label ∉ seen).eraseDups := by
  induction labels generalizing seen with
  | nil => simp
  | cons label labels ih =>
    rw [List.foldl_cons]
    by_cases hmem : label ∈ seen
    · rw [if_pos hmem, ih, List.filter_cons_of_neg (by simpa using hmem)]
    · rw [if_neg hmem, ih, List.filter_cons_of_pos (by simpa using hmem), List.eraseDups_cons,
        List.filter_filter, List.append_assoc, List.singleton_append]
      congr 3
      apply List.filter_congr
      intro other _
      by_cases heq : other = label
      · simp [heq]
      · simp [heq]

/-- **The union lists every label once, at its first appearance.** -/
theorem unionLabels_eq_eraseDups (labels : List String) :
    unionLabels labels = labels.eraseDups := by
  rw [unionLabels, foldl_unite]
  simp

theorem mem_unionLabels : label ∈ unionLabels labels ↔ label ∈ labels := by
  rw [unionLabels_eq_eraseDups, List.mem_eraseDups]

theorem unionLabels_append (first others : List String) :
    unionLabels (first ++ others)
      = unionLabels first
        ++ (others.filter fun label ↦ label ∉ unionLabels first).eraseDups := by
  rw [unionLabels, List.foldl_append, foldl_unite, ← unionLabels]

theorem unionLabels_of_nodup (h : labels.Nodup) : unionLabels labels = labels := by
  induction labels using List.reverseRecOn with
  | nil => rfl
  | append_singleton labels label ih =>
    obtain ⟨hnodup, -, hnew⟩ := List.nodup_append.mp h
    have hmem : label ∉ labels := fun hmem ↦ hnew label hmem label (by simp) rfl
    rw [unionLabels_append, ih hnodup]
    simp [hmem, List.eraseDups_cons]

theorem nodup_unionLabels (labels : List String) : (unionLabels labels).Nodup := by
  induction labels using List.reverseRecOn with
  | nil => exact List.nodup_nil
  | append_singleton labels label ih =>
    rw [unionLabels_append]
    by_cases hmem : label ∈ unionLabels labels
    · simpa [hmem] using ih
    · have hdisjoint : (unionLabels labels).Disjoint [label] := by simpa using hmem
      simpa [hmem, List.eraseDups_cons] using ih.append (List.nodup_singleton label) hdisjoint

/-! ## Registering all of them -/

theorem InStep.registerAll (h : m.InStep) (labels : List String) :
    (m.registerAll labels).1.InStep :=
  (registerAll_edits m labels).inStep h

/-- Labels that are known already need no registration. -/
theorem InStep.registerAll_of_known (h : m.InStep)
    (hknown : ∀ label ∈ labels, label ∈ m.registry.labels) : (m.registerAll labels).1 = m := by
  induction labels with
  | nil => rfl
  | cons label rest ih =>
    have hregister : m.register label = m := by
      cases hlookup : m.lookup label with
      | none =>
        exact absurd (hknown label List.mem_cons_self) (h.indexed.lookup_eq_none_iff.mp hlookup)
      | some i => exact register_of_known hlookup
    rw [Monitor.registerAll, hregister]
    exact ih fun other hother ↦ hknown other (List.mem_cons_of_mem label hother)

theorem InStep.mem_labels_register (h : m.InStep) {other : String} :
    other ∈ (m.register label).registry.labels ↔ other = label ∨ other ∈ m.registry.labels := by
  cases hlookup : m.lookup label with
  | some i =>
    rw [register_of_known hlookup]
    refine ⟨.inr, ?_⟩
    rintro (rfl | hmem)
    · by_contra hmem
      rw [lookup, h.indexed.lookup_eq_none_iff.mpr hmem] at hlookup
      cases hlookup
    · exact hmem
  | none =>
    rw [labels_register_of_new hlookup, List.mem_append, List.mem_singleton, or_comm]

theorem InStep.mem_labels_registerAll (h : m.InStep) :
    label ∈ (m.registerAll labels).1.registry.labels
      ↔ label ∈ labels ∨ label ∈ m.registry.labels := by
  induction labels generalizing m with
  | nil => simp [Monitor.registerAll]
  | cons first rest ih =>
    rw [Monitor.registerAll, ih (h.register first), h.mem_labels_register, List.mem_cons,
      or_left_comm, or_assoc]

/-- Registering labels keeps what is known of every label. -/
theorem sectionOf_registerAll (h : m.InStep) (labels : List String) (label : String) :
    (m.registerAll labels).1.sectionOf label = m.sectionOf label := by
  induction labels generalizing m with
  | nil => rfl
  | cons first rest ih => rw [registerAll, ih (h.register first), sectionOf_register h]

/-- The handle of a registered label leads to the section of the label. -/
theorem InStep.sectionAt_indexOf (h : m.InStep) (hmem : label ∈ m.registry.labels) :
    m.sectionAt (m.indexOf label) = m.sectionOf label := by
  cases hlookup : m.lookup label with
  | none => exact absurd hmem (h.indexed.lookup_eq_none_iff.mp hlookup)
  | some i => rw [← h.sectionAt_register, register_of_known hlookup]

/-- After labels were registered their handles lead to what was known of them before. -/
theorem InStep.sectionAt_registerAll (h : m.InStep) (hmem : label ∈ labels) :
    (m.registerAll labels).1.sectionAt ((m.registerAll labels).1.indexOf label)
      = m.sectionOf label := by
  rw [(h.registerAll labels).sectionAt_indexOf (h.mem_labels_registerAll.mpr (.inl hmem)),
    sectionOf_registerAll h]

theorem rootSection_registerAll (m : Monitor) (labels : List String) :
    (m.registerAll labels).1.rootSection = m.rootSection := by
  refine registerAll_eq_of_register (fun m label ↦ ?_) m labels
  rw [register]
  split <;> rfl

theorem events_registerAll (m : Monitor) (labels : List String) :
    (m.registerAll labels).1.events = m.events := by
  refine registerAll_eq_of_register (fun m label ↦ ?_) m labels
  rw [register]
  split <;> rfl

theorem settings_registerAll (m : Monitor) (labels : List String) :
    (m.registerAll labels).1.settings = m.settings := by
  refine registerAll_eq_of_register (fun m label ↦ ?_) m labels
  rw [register]
  split <;> rfl

/-! ## The end of the root section -/

/-- How long the root section has lasted by the time of a gather. -/
def lifetime (m : Monitor) (now : Duration) : Duration :=
  match m.rootSection.phase with
  | .idle => m.rootSection.totals.elapsed
  | .running since _ => m.rootSection.totals.elapsed.saturatingAdd (now.saturatingSub since)

theorem elapsed_sealed (m : Monitor) (now : Duration) :
    (m.sealed now).rootSection.totals.elapsed = m.lifetime now := by
  rw [sealed, stopRoot, lifetime]
  cases hphase : m.rootSection.phase <;> simp [Section.finish, Totals.record]

theorem events_sealed (m : Monitor) (now : Duration) : (m.sealed now).events = m.events := by
  rw [sealed, stopRoot]
  split <;> rfl

theorem settings_sealed (m : Monitor) (now : Duration) :
    (m.sealed now).settings = m.settings := by
  rw [sealed, stopRoot]
  split <;> rfl

/-- Ending the root section does not touch what is known of a label. -/
theorem sectionOf_sealed (m : Monitor) (now : Duration) (label : String) :
    (m.sealed now).sectionOf label = m.sectionOf label := by
  rw [sectionOf, sectionOf, sections_sealed, newSource, newSource, countersActive, countersActive,
    events_sealed, settings_sealed]

theorem InStep.sealed (h : m.InStep) (now : Duration) : (m.sealed now).InStep :=
  ⟨by rw [registry_sealed]; exact h.indexed,
    by rw [registry_sealed, sections_sealed, h.labels_eq], by rw [registry_sealed]; exact h.nodup⟩

end Monitor

end SectionMonitor
