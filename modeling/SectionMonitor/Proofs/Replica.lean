import SectionMonitor.Proofs.Edit

/-!
# Replicas as they begin

A replica is made by registering the parent's labels one by one. What comes out is simple: the
parent's registry, the parent's sections without what they measured, and the parent's token. With
it every monitor that a program can get hold of has its labels and sections in step.
-/

namespace SectionMonitor

/-- The section as a replica begins with it: of the same kind, but idle and without totals. -/
def Section.fresh (s : Section) : Section := { s with totals := {}, phase := .idle }

namespace Monitor

variable {m r : Monitor}

/-- A parent's section that is new to a replica comes to stand last. -/
theorem InStep.adopt_of_new (h : r.InStep) {parent : Section} (hnew : r.lookup parent.label = none)
    (htrace : r.trace = none) :
    r.adopt parent
      = { r with
          registry := .ofLabels (r.registry.labels ++ [parent.label])
          sections := r.sections ++ [parent.fresh] } := by
  have hlabels : r.registry.add parent.label
      = .ofLabels (r.registry.labels ++ [parent.label]) := by
    rw [← Registry.labels_add_of_new hnew]
    exact h.indexed.add parent.label
  rw [adopt, h.indexOf_of_new hnew, register_of_new hnew, hlabels, record, modifySection, htrace,
    Option.map_none, ← htrace]
  congr 1
  rw [List.modify_eq_set_getElem?, List.getElem?_concat_length]
  simp [Section.imitate, Section.fresh]

theorem InStep.adoptAll_eq (parents : List Section) (h : r.InStep) (htrace : r.trace = none)
    (hnodup : (r.registry.labels ++ parents.map Section.label).Nodup) :
    (r.adoptAll parents).1
      = { r with
          registry := .ofLabels (r.registry.labels ++ parents.map Section.label)
          sections := r.sections ++ parents.map Section.fresh } := by
  induction parents generalizing r with
  | nil =>
    have hregistry : Registry.ofLabels r.registry.labels = r.registry := h.indexed.symm
    simp [adoptAll, hregistry]
  | cons parent rest ih =>
    have hnew : r.lookup parent.label = none := by
      rw [lookup, h.indexed.lookup_eq_none_iff]
      intro hmem
      exact (List.nodup_append.mp hnodup).2.2 _ hmem _ (by simp) rfl
    have hadopt := h.adopt_of_new hnew htrace
    have hassoc : (r.registry.labels ++ [parent.label]) ++ rest.map Section.label
        = r.registry.labels ++ (parent :: rest).map Section.label := by simp
    have hstep : (r.adopt parent).InStep := by
      rw [hadopt]
      refine ⟨rfl, ?_, ?_⟩
      · rw [List.map_append, ← h.labels_eq]
        rfl
      · exact (List.nodup_append.mp (hassoc ▸ hnodup)).1
    have hlabels : (r.adopt parent).registry.labels = r.registry.labels ++ [parent.label] := by
      rw [hadopt, Registry.labels_ofLabels]
    have hfirst : (r.adoptAll (parent :: rest)).1 = ((r.adopt parent).adoptAll rest).1 := rfl
    rw [hfirst, ih hstep (by rw [hadopt]; exact htrace) (by rw [hlabels, hassoc]; exact hnodup),
      hlabels, hassoc, hadopt]
    simp

/-- **What a replica begins with.** -/
theorem InStep.replica_eq (h : m.InStep) (thread : ℕ) :
    m.replica thread
      = { blank m.settings m.events (.thread thread) .idle with
          registry := m.registry
          sections := m.sections.map Section.fresh
          token := m.token } := by
  have hblank : (blank m.settings m.events (.thread thread) .idle).InStep :=
    ⟨rfl, rfl, List.nodup_nil⟩
  have hlabels : Registry.ofLabels (m.sections.map Section.label) = m.registry := by
    rw [← h.labels_eq]
    exact h.indexed.symm
  have hall := hblank.adoptAll_eq m.sections rfl
    (by simpa [blank, ← h.labels_eq] using h.nodup)
  rw [replica, replicate]
  simp only [hall]
  simp [blank, hlabels]

theorem InStep.replica (h : m.InStep) (thread : ℕ) : (m.replica thread).InStep := by
  rw [h.replica_eq]
  refine ⟨h.indexed, ?_, h.nodup⟩
  rw [h.labels_eq, List.map_map]
  rfl

/-- The threads of a region are at work on the replicas with their numbers. -/
theorem mapIdx_crew (m : Monitor) (here : Surroundings) (body : ℕ → Monitor → Monitor × Ending) :
    (m.crew here).mapIdx (fun thread r ↦ body thread r.1)
      = (List.range here.team.threads).map fun thread ↦ body thread (m.replica thread) := by
  refine List.ext_getElem (by simp [crew]) fun t ht ht' ↦ ?_
  simp [crew, Monitor.replica]

/-- A region depends on its team, and on what the threads make of their replicas. -/
theorem parallel_congr (m : Monitor) {here here' : Surroundings}
    {body body' : ℕ → Monitor → Monitor × Ending} (hteam : here'.team = here.team)
    (hbody : ∀ thread, body' thread (m.replica thread) = body thread (m.replica thread)) :
    m.parallel here' body' = m.parallel here body := by
  have hcrew : m.crew here' = m.crew here := by rw [crew, crew, hteam]
  have hdone : (m.crew here').mapIdx (fun thread r ↦ body' thread r.1)
      = (m.crew here).mapIdx fun thread r ↦ body thread r.1 := by
    rw [mapIdx_crew, mapIdx_crew, hteam]
    exact List.map_congr_left fun thread _ ↦ hbody thread
  rw [parallel, parallel, hdone, hcrew]

/-! ## Reachable monitors -/

theorem inStep_build (settings : Settings) (adapterEvents : Option (List String)) (traced : Bool)
    (now : Duration) : (build settings adapterEvents traced now).InStep := by
  rw [build]
  split <;> exact ⟨rfl, rfl, List.nodup_nil⟩

theorem sections_build (settings : Settings) (adapterEvents : Option (List String))
    (traced : Bool) (now : Duration) : (build settings adapterEvents traced now).sections = [] := by
  rw [build]
  split <;> rfl

theorem Reachable.inStep (h : m.Reachable) : m.InStep := by
  induction h with
  | build settings adapterEvents traced now => exact inStep_build settings adapterEvents traced now
  | replica thread _ ih => exact ih.replica thread
  | after op _ ih => exact (after_edits ih op).inStep ih

/-- **Invariants.** What holds of monitors that are built and of replicas of reachable ones, and is
kept by every change, holds of every monitor that a program can get hold of. -/
theorem Reachable.invariant {P : Monitor → Prop}
    (hbuild : ∀ settings adapterEvents traced now,
      P (Monitor.build settings adapterEvents traced now))
    (hreplica : ∀ (m : Monitor) thread, m.Reachable → P m → P (m.replica thread))
    (hedit : ∀ m m', Edit m m' → P m → P m') (h : m.Reachable) : P m := by
  induction h with
  | build settings adapterEvents traced now => exact hbuild settings adapterEvents traced now
  | replica thread hm ih => exact hreplica _ thread hm ih
  | after op hm ih => exact (after_edits hm.inStep op).keep hedit ih

theorem Reachable.run (h : m.Reachable) (ops : List Operation) : (m.run ops).Reachable := by
  induction ops using List.reverseRecOn with
  | nil => exact h
  | append_singleton ops op ih =>
    rw [run_append]
    exact ih.after op

end Monitor

end SectionMonitor
