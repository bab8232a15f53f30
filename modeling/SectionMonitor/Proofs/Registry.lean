import Mathlib.Data.List.Basic
import Mathlib.Data.List.Nodup
import SectionMonitor.Monitor.Basic

/-!
# Labels and sections in step

The labels of a registry, its table of handles and the sections of its monitor are separate lists
that every operation has to extend together. `Monitor.InStep` says that they agree: the table has
label `k` with its handle, place `k` of the sections belongs to label `k`, and no label occurs
twice. Under it a handle and a label are two names of the same section, and the section of a label,
`Monitor.sectionOf`, can be found without the registry.

Registering a label is the only way in which the lists grow. What it leads to is stated once, in
`Monitor.InStep.exists_section_register`; the operations that begin with a registration go on from
there.
-/

namespace SectionMonitor

/-! ## Handles -/

/-- A list without repetitions has an element in one place only. -/
theorem idxOf?_of_getElem? {labels : List String} {label : String} (h : labels.Nodup) {k : ℕ}
    (hk : labels[k]? = some label) : labels.idxOf? label = some k := by
  obtain ⟨hlt, rfl⟩ := List.getElem?_eq_some_iff.mp hk
  refine List.idxOf?_eq_some_iff.mpr ⟨hlt, rfl, fun j hj heq ↦ ?_⟩
  exact Nat.ne_of_lt hj ((h.getElem_inj_iff).mp heq)

namespace Registry

variable {r : Registry} {label : String}

/-- The registry of some labels, whose table has them with their handles in order. -/
def ofLabels (labels : List String) : Registry :=
  ⟨labels, labels.mapIdx fun k label ↦ (label, ⟨k + 1⟩)⟩

@[simp] theorem labels_ofLabels (labels : List String) : (ofLabels labels).labels = labels := rfl

/-- The table has the labels of the registry, each with its handle, and nothing else. -/
def Indexed (r : Registry) : Prop := r = ofLabels r.labels

theorem lookup_mapIdx (labels : List String) (label : String) (n : ℕ) :
    (labels.mapIdx fun k label ↦ (label, (⟨k + n⟩ : Index))).lookup label
      = (labels.idxOf? label).map fun k ↦ ⟨k + n⟩ := by
  induction labels generalizing n with
  | nil => rfl
  | cons first labels ih =>
    have hrest := ih (n + 1)
    rw [List.mapIdx_cons, List.lookup_cons, List.idxOf?_cons]
    by_cases heq : label = first
    · simp [heq]
    · have hleft : (label == first) = false := by simpa using heq
      have hright : (first == label) = false := by simpa using Ne.symm heq
      simpa [hleft, hright, Nat.add_assoc, Nat.add_comm 1, Function.comp_def] using hrest

namespace Indexed

/-- A look-up finds the place of a label. -/
theorem lookup_eq (h : r.Indexed) (label : String) :
    r.lookup label = (r.labels.idxOf? label).map fun k ↦ ⟨k + 1⟩ := by
  have hlookup : (ofLabels r.labels).lookup label = _ := lookup_mapIdx r.labels label 1
  rwa [← h] at hlookup

theorem lookup_eq_none_iff (h : r.Indexed) : r.lookup label = none ↔ label ∉ r.labels := by
  rw [h.lookup_eq, Option.map_eq_none_iff, List.idxOf?_eq_none_iff]

theorem lookup_of_getElem? (h : r.Indexed) (hnodup : r.labels.Nodup) {k : ℕ}
    (hk : r.labels[k]? = some label) : r.lookup label = some ⟨k + 1⟩ := by
  rw [h.lookup_eq, idxOf?_of_getElem? hnodup hk, Option.map_some]

theorem exists_getElem?_of_lookup (h : r.Indexed) {i : Index} (hi : r.lookup label = some i) :
    ∃ k, i = ⟨k + 1⟩ ∧ r.labels[k]? = some label := by
  rw [h.lookup_eq] at hi
  obtain ⟨k, hk, rfl⟩ := Option.map_eq_some_iff.mp hi
  obtain ⟨hlt, heq, -⟩ := List.idxOf?_eq_some_iff.mp hk
  exact ⟨k, rfl, List.getElem?_eq_some_iff.mpr ⟨hlt, heq⟩⟩

theorem add (h : r.Indexed) (label : String) : (r.add label).Indexed := by
  rw [Registry.add]
  split
  · exact h
  · have hhandles : r.handles = r.labels.mapIdx fun k label ↦ (label, ⟨k + 1⟩) :=
      congrArg handles h
    rw [Indexed, ofLabels, List.mapIdx_concat, hhandles]
    rfl

end Indexed

theorem labels_add_of_new (h : r.lookup label = none) :
    (r.add label).labels = r.labels ++ [label] := by
  rw [add, h]
  rfl

end Registry

namespace Monitor

variable {m : Monitor} {label : String}

/-! ## The invariant -/

/-- The registry and the sections list the same labels in the same order, each of them once, and
the table of the registry has them with their handles. -/
structure InStep (m : Monitor) : Prop where
  indexed : m.registry.Indexed
  labels_eq : m.registry.labels = m.sections.map Section.label
  nodup : m.registry.labels.Nodup

/-- The section of a label, or the one that registering the label would create. -/
def sectionOf (m : Monitor) (label : String) : Section :=
  (m.sections.find? fun s ↦ s.label = label).getD { label := label, source := m.newSource }

namespace InStep

theorem getElem?_labels (h : m.InStep) {k : ℕ} {s : Section} (hk : m.sections[k]? = some s) :
    m.registry.labels[k]? = some s.label := by
  rw [h.labels_eq, List.getElem?_map, hk, Option.map_some]

theorem lookup_of_section (h : m.InStep) {k : ℕ} {s : Section} (hk : m.sections[k]? = some s) :
    m.lookup s.label = some ⟨k + 1⟩ :=
  h.indexed.lookup_of_getElem? h.nodup (h.getElem?_labels hk)

/-- A look-up leads to the place of the section with that label. -/
theorem exists_section_of_lookup (h : m.InStep) {i : Index} (hi : m.lookup label = some i) :
    ∃ k s, i = ⟨k + 1⟩ ∧ m.sections[k]? = some s ∧ s.label = label := by
  obtain ⟨k, rfl, hk⟩ := h.indexed.exists_getElem?_of_lookup hi
  rw [h.labels_eq, List.getElem?_map, Option.map_eq_some_iff] at hk
  obtain ⟨s, hs, hlabel⟩ := hk
  exact ⟨k, s, rfl, hs, hlabel⟩

/-- Two places with one label are the same place. -/
theorem place_unique (h : m.InStep) {j k : ℕ} {s t : Section} (hj : m.sections[j]? = some s)
    (hk : m.sections[k]? = some t) (hlabel : s.label = t.label) : j = k := by
  have hs := h.lookup_of_section hj
  rw [hlabel, h.lookup_of_section hk] at hs
  simpa using hs.symm

theorem find?_section (h : m.InStep) {k : ℕ} {s : Section} (hk : m.sections[k]? = some s) :
    (m.sections.find? fun t ↦ t.label = s.label) = some s := by
  have hmem : s ∈ m.sections := List.mem_of_getElem? hk
  have hsome : (m.sections.find? fun t ↦ t.label = s.label).isSome := by
    rw [List.find?_isSome]
    exact ⟨s, hmem, by simp⟩
  obtain ⟨t, ht⟩ := Option.isSome_iff_exists.mp hsome
  obtain ⟨j, hj⟩ := List.getElem?_of_mem (List.mem_of_find?_eq_some ht)
  have hlabel : t.label = s.label := by simpa using List.find?_some ht
  have hjk : j = k := h.place_unique hj hk hlabel
  subst hjk
  rw [ht, ← hj, hk]

theorem sectionOf_section (h : m.InStep) {k : ℕ} {s : Section} (hk : m.sections[k]? = some s) :
    m.sectionOf s.label = s := by
  rw [sectionOf, h.find?_section hk, Option.getD_some]

theorem find?_of_new (h : m.InStep) (hnew : m.lookup label = none) :
    (m.sections.find? fun s ↦ s.label = label) = none := by
  rw [lookup, h.indexed.lookup_eq_none_iff, h.labels_eq, List.mem_map] at hnew
  rw [List.find?_eq_none]
  intro s hs
  simpa using fun heq ↦ hnew ⟨s, hs, heq⟩

theorem sectionOf_of_new (h : m.InStep) (hnew : m.lookup label = none) :
    m.sectionOf label = { label := label, source := m.newSource } := by
  rw [sectionOf, h.find?_of_new hnew, Option.getD_none]

end InStep

@[simp] theorem label_sectionOf (m : Monitor) (label : String) :
    (m.sectionOf label).label = label := by
  rw [sectionOf]
  cases h : m.sections.find? fun s ↦ s.label = label with
  | none => rfl
  | some s => simpa using List.find?_some h

/-- What is known of a label is the section that it has, or would have when it is registered. -/
theorem sectionOf_cases (m : Monitor) (label : String) :
    m.sectionOf label = { label := label, source := m.newSource } ∨
      m.sectionOf label ∈ m.sections := by
  rw [sectionOf]
  cases hfind : m.sections.find? fun s ↦ s.label = label with
  | none => exact .inl rfl
  | some s => exact .inr (List.mem_of_find?_eq_some hfind)

/-! ## Registration -/

theorem register_of_known {i : Index} (h : m.lookup label = some i) : m.register label = m := by
  rw [register, h]

theorem indexOf_of_known {i : Index} (h : m.lookup label = some i) : m.indexOf label = i := by
  rw [indexOf, Registry.indexOf, ← lookup, h, Option.getD_some]

theorem register_of_new (h : m.lookup label = none) :
    m.register label
      = record
          { m with
            registry := m.registry.add label
            sections := m.sections ++ [{ label := label, source := m.newSource }] }
          (.defineLabel (m.indexOf label) label) := by
  rw [register, h]

theorem sections_register_of_new (h : m.lookup label = none) :
    (m.register label).sections = m.sections ++ [{ label := label, source := m.newSource }] := by
  rw [register_of_new h]
  rfl

theorem labels_register_of_new (h : m.lookup label = none) :
    (m.register label).registry.labels = m.registry.labels ++ [label] := by
  rw [register_of_new h]
  exact Registry.labels_add_of_new h

namespace InStep

theorem indexOf_of_new (h : m.InStep) (hnew : m.lookup label = none) :
    m.indexOf label = ⟨m.sections.length + 1⟩ := by
  rw [indexOf, Registry.indexOf, ← lookup, hnew, Option.getD_none, Registry.size, h.labels_eq,
    List.length_map]

theorem register (h : m.InStep) (label : String) : (m.register label).InStep := by
  cases hlookup : m.lookup label with
  | some i => rwa [register_of_known hlookup]
  | none =>
    have hmem : label ∉ m.registry.labels := h.indexed.lookup_eq_none_iff.mp hlookup
    refine ⟨?_, ?_, ?_⟩
    · rw [register_of_new hlookup]
      exact h.indexed.add label
    · rw [labels_register_of_new hlookup, sections_register_of_new hlookup, List.map_append,
        ← h.labels_eq]
      rfl
    · rw [labels_register_of_new hlookup]
      exact h.nodup.append (List.nodup_singleton label) (by simpa using hmem)

/-- **What a registration leads to.** Afterwards the handle of the label is the place of a
section, and this is the section that the label had before, or a new one. -/
theorem exists_section_register (h : m.InStep) (label : String) :
    ∃ k, m.indexOf label = ⟨k + 1⟩ ∧
      (m.register label).sections[k]? = some (m.sectionOf label) := by
  cases hlookup : m.lookup label with
  | some i =>
    obtain ⟨k, s, rfl, hk, rfl⟩ := h.exists_section_of_lookup hlookup
    refine ⟨k, indexOf_of_known hlookup, ?_⟩
    rw [register_of_known hlookup, h.sectionOf_section hk, hk]
  | none =>
    refine ⟨m.sections.length, h.indexOf_of_new hlookup, ?_⟩
    rw [sections_register_of_new hlookup, h.sectionOf_of_new hlookup, List.getElem?_concat_length]

end InStep

/-- A registration keeps the section of every label, the new one included. -/
theorem sectionOf_register (h : m.InStep) (label other : String) :
    (m.register label).sectionOf other = m.sectionOf other := by
  cases hlookup : m.lookup label with
  | some i => rw [register_of_known hlookup]
  | none =>
    have hsource : (m.register label).newSource = m.newSource := by
      rw [register_of_new hlookup]
      rfl
    rw [sectionOf, sectionOf, sections_register_of_new hlookup, hsource, List.find?_append]
    by_cases heq : label = other
    · subst heq
      rw [h.find?_of_new hlookup]
      simp
    · cases m.sections.find? fun s ↦ s.label = other with
      | none => simp [heq]
      | some s => rfl

end Monitor

end SectionMonitor
