import SectionMonitor.Proofs.Ranking
import SectionMonitor.Report.Rows

/-!
# The rows of a report

A report selects its rows along different ways. The exclusive sections come from the ranking or
straight from the sections of the summary, the others from the sections in any case, and each
selection looks at exclusivity, label and calls for itself. Here the selections are compared
position by position (`rows_partition`): every called section is in one of them and only once,
except that an exclusive section without a label is in none.

`exclusivePlaced` keeps the positions beside the sections. The two orders of a report are two orders
of this list, so whatever does not depend on the order is shown for the sections as they were
registered.
-/

namespace SectionMonitor

/-! ## Called sections -/

namespace SectionSummary

/-- Some process finished the section. -/
def WasCalled (t : SectionSummary) : Prop := ∃ sample ∈ t.samples, 0 < sample.calls

theorem hasCalls_iff (t : SectionSummary) : t.hasCalls = true ↔ t.WasCalled := by
  rw [hasCalls, callCounts, List.any_map, List.any_eq_true, WasCalled]
  simp only [Function.comp_apply, decide_eq_true_iff]

end SectionSummary

/-! ## Rows at positions -/

/-- The rows show all called sections of a kind: those at the given positions, in this order and
each of them once. A row has the label of its section and the calls of rank zero. -/
structure Shows (s : Summary) (kind : SectionSummary → Prop) (places : List ℕ)
    (rows : List SectionRow) : Prop where
  nodup : places.Nodup
  mem_iff (p : ℕ) : p ∈ places ↔ ∃ t, s.sections[p]? = some t ∧ t.WasCalled ∧ kind t
  rows_eq : rows.map some = places.map fun p ↦ s.sections[p]?.map (.ofSection s.totalTime)
  labels_eq : (rows.map SectionRow.label).map some
    = places.map fun p ↦ s.sections[p]?.map SectionSummary.label
  calls_eq : (rows.map SectionRow.calls).map some
    = places.map fun p ↦ s.sections[p]?.map fun t ↦ (t.samples.map Sample.calls).headD 0

/-- The sections of a list stand where the list says. -/
def Placed (sections : List SectionSummary) (placed : List (SectionSummary × ℕ)) : Prop :=
  ∀ x ∈ placed, sections[x.2]? = some x.1

theorem Placed.map_some {sections : List SectionSummary} {placed : List (SectionSummary × ℕ)}
    (h : Placed sections placed) :
    (placed.map Prod.fst).map some = (placed.map Prod.snd).map (sections[·]?) := by
  rw [List.map_map, List.map_map]
  exact List.map_congr_left fun x hx ↦ (h x hx).symm

theorem placed_zipIdx_filter (sections : List SectionSummary)
    (keep : SectionSummary × ℕ → Bool) : Placed sections ((sections.zipIdx).filter keep) :=
  fun _ hx ↦ List.mem_zipIdx_iff_getElem?.mp (List.mem_of_mem_filter hx)

theorem map_fst_zipIdx_filter (sections : List SectionSummary) (keep : SectionSummary → Bool) :
    ((sections.zipIdx).filter fun x ↦ keep x.1).map Prod.fst = sections.filter keep := by
  calc ((sections.zipIdx).filter (keep ∘ Prod.fst)).map Prod.fst
      = ((sections.zipIdx).map Prod.fst).filter keep := List.filter_map.symm
    _ = sections.filter keep := by rw [List.zipIdx_map_fst]

/-- What is made of the sections of a list is made of the sections at their positions. -/
theorem Placed.map_map_some {α : Type} {sections : List SectionSummary}
    {placed : List (SectionSummary × ℕ)} (h : Placed sections placed) (f : SectionSummary → α) :
    ((placed.map Prod.fst).map f).map some
      = (placed.map Prod.snd).map fun p ↦ sections[p]?.map f := by
  calc ((placed.map Prod.fst).map f).map some
      = ((placed.map Prod.fst).map some).map (Option.map f) := by
        simp only [List.map_map, Function.comp_def, Option.map_some]
    _ = (placed.map Prod.snd).map fun p ↦ sections[p]?.map f := by
        rw [h.map_some, List.map_map]
        rfl

/-- Rows show the sections that they are made of. -/
theorem Placed.shows {s : Summary} {kind : SectionSummary → Prop}
    {placed : List (SectionSummary × ℕ)} (h : Placed s.sections placed)
    (hnodup : (placed.map Prod.snd).Nodup)
    (hmem : ∀ p, p ∈ placed.map Prod.snd ↔ ∃ t, s.sections[p]? = some t ∧ t.WasCalled ∧ kind t) :
    Shows s kind (placed.map Prod.snd) ((placed.map Prod.fst).map (.ofSection s.totalTime)) where
  nodup := hnodup
  mem_iff := hmem
  rows_eq := h.map_map_some _
  labels_eq := by
    have hlabels : ((placed.map Prod.fst).map (.ofSection s.totalTime)).map SectionRow.label
        = (placed.map Prod.fst).map SectionSummary.label := List.map_map
    rw [hlabels, h.map_map_some]
  calls_eq := by
    have hcalls : ((placed.map Prod.fst).map (.ofSection s.totalTime)).map SectionRow.calls
        = (placed.map Prod.fst).map fun t ↦ (t.samples.map Sample.calls).headD 0 := List.map_map
    rw [hcalls, h.map_map_some]

theorem shows_filter {s : Summary} {keep : SectionSummary → Bool} {kind : SectionSummary → Prop}
    (h : ∀ t, keep t = true ↔ t.WasCalled ∧ kind t) :
    Shows s kind (positions s.sections keep)
      ((s.sections.filter keep).map (.ofSection s.totalTime)) := by
  have hmem (p : ℕ) : p ∈ positions s.sections keep
      ↔ ∃ t, s.sections[p]? = some t ∧ t.WasCalled ∧ kind t := by
    simp only [mem_positions, h]
  rw [← map_fst_zipIdx_filter]
  exact Placed.shows (placed_zipIdx_filter _ _) (positions_nodup s.sections keep) hmem

namespace Report

/-! ## Exclusive sections -/

/-- The called exclusive sections that have a label, with their positions. -/
def exclusivePlaced (r : Report) : List (SectionSummary × ℕ) :=
  (match r.order with
    | .byTime => r.summary.rankedSections
    | .byRegistration => (r.summary.sections.zipIdx).filter fun x ↦ Ranking.admits x.1).filter
      fun x ↦ x.1.hasCalls

theorem calledExclusive_eq (r : Report) : r.calledExclusive = r.exclusivePlaced.map Prod.fst := by
  obtain ⟨s, order, level⟩ := r
  cases order with
  | byTime => exact List.filter_map
  | byRegistration =>
    have hsections : exclusiveSections ⟨s, .byRegistration, level⟩
        = ((s.sections.zipIdx).filter fun x ↦ Ranking.admits x.1).map Prod.fst :=
      (map_fst_zipIdx_filter ..).symm
    rw [calledExclusive, hsections]
    exact List.filter_map

/-- The two orders list the same sections. -/
theorem exclusivePlaced_perm (r : Report) :
    r.exclusivePlaced.Perm
      ((r.summary.sections.zipIdx).filter fun x ↦ Ranking.admits x.1 && x.1.hasCalls) := by
  have hsplit : ((r.summary.sections.zipIdx).filter fun x ↦ Ranking.admits x.1 && x.1.hasCalls)
      = ((r.summary.sections.zipIdx).filter fun x ↦ Ranking.admits x.1).filter
        fun x ↦ x.1.hasCalls := by
    rw [List.filter_filter]
    exact List.filter_congr fun x _ ↦ Bool.and_comm ..
  rw [hsplit, exclusivePlaced]
  cases r.order with
  | byTime => exact r.summary.rankedSections_perm.filter _
  | byRegistration => exact .refl _

/-- The positions of the called exclusive sections that have a label, in the order of the report. -/
def exclusivePlaces (r : Report) : List ℕ := r.exclusivePlaced.map Prod.snd

theorem placed_exclusivePlaced (r : Report) : Placed r.summary.sections r.exclusivePlaced :=
  fun x hx ↦ placed_zipIdx_filter _ _ x (r.exclusivePlaced_perm.mem_iff.mp hx)

theorem exclusivePlaces_perm (r : Report) :
    r.exclusivePlaces.Perm
      (positions r.summary.sections fun t ↦ Ranking.admits t && t.hasCalls) :=
  r.exclusivePlaced_perm.map Prod.snd

theorem shows_exclusiveRows (r : Report) :
    Shows r.summary (fun t ↦ t.exclusive = true ∧ t.label ≠ "") r.exclusivePlaces
      r.exclusiveRows := by
  rw [exclusiveRows, calledExclusive_eq]
  refine r.placed_exclusivePlaced.shows ?_ fun p ↦ ?_
  · exact r.exclusivePlaces_perm.nodup_iff.mpr (positions_nodup ..)
  · have hmem := r.exclusivePlaces_perm.mem_iff (a := p)
    rw [exclusivePlaces, mem_positions] at hmem
    rw [hmem]
    simp only [Bool.and_eq_true, Ranking.admits_iff, SectionSummary.hasCalls_iff, and_comm]

theorem exclusivePlaces_of_byTime {r : Report} (h : r.order = .byTime) :
    r.exclusivePlaces.Sublist r.summary.ranking := by
  rw [exclusivePlaces, exclusivePlaced, h]
  exact List.filter_sublist.map Prod.snd

theorem exclusivePlaces_of_byRegistration {r : Report} (h : r.order = .byRegistration) :
    r.exclusivePlaces.Pairwise (· < ·) := by
  rw [exclusivePlaces, exclusivePlaced, h]
  exact (positions_sorted r.summary.sections Ranking.admits).sublist
    (List.filter_sublist.map Prod.snd)

/-! ## Other sections -/

/-- The positions of the other called sections. -/
def otherPlaces (r : Report) : List ℕ :=
  positions r.summary.sections fun t ↦ !t.exclusive && t.hasCalls

theorem shows_otherRows (r : Report) :
    Shows r.summary (fun t ↦ t.exclusive = false) r.otherPlaces r.otherRows :=
  shows_filter fun t ↦ by
    rw [Bool.and_eq_true, Bool.not_eq_true', SectionSummary.hasCalls_iff, and_comm]

/-! ## All rows -/

/-- **The rows of a report.** The called sections are divided among the two lists of rows: the
exclusive ones that have a label in the order of the report, and those that are not exclusive in the
order of registration. Either order of the report has the same rows for the exclusive sections. -/
theorem rows_partition (r : Report) :
    ∃ exclusive others : List ℕ,
      Shows r.summary (fun t ↦ t.exclusive = true ∧ t.label ≠ "") exclusive r.exclusiveRows ∧
      Shows r.summary (fun t ↦ t.exclusive = false) others r.otherRows ∧
      (r.order = .byTime → exclusive.Sublist r.summary.ranking) ∧
      (r.order = .byRegistration → exclusive.Pairwise (· < ·)) ∧
      others.Pairwise (· < ·) ∧
      ∀ order, r.exclusiveRows.Perm (exclusiveRows { r with order }) := by
  refine ⟨r.exclusivePlaces, r.otherPlaces, r.shows_exclusiveRows, r.shows_otherRows,
    exclusivePlaces_of_byTime, exclusivePlaces_of_byRegistration, positions_sorted .., ?_⟩
  intro order
  rw [exclusiveRows, exclusiveRows, calledExclusive_eq, calledExclusive_eq]
  exact ((r.exclusivePlaced_perm.trans (exclusivePlaced_perm { r with order }).symm).map _).map _

end Report

end SectionMonitor
