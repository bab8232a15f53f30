import SectionMonitor.Proofs.ReportRows
import SectionMonitor.Report.Text

/-!
# The levels of a report

A report of a higher level is the report of the level below it with something written after it: the
share of every process, and then the hardware counters (`levels_cumulative`). Both parts go through
the sections that the rows are about, in the same order, so what the rows say of a section can be
looked up further down.

Nothing before these parts knows of the level, and only the width of the column of labels could have
carried it there (`text_eq`). The counters are missing where no section was called and where there
are no hardware events, and nowhere else.
-/

namespace SectionMonitor

/-! ## Written lines -/

/-- Lines as they are written, each of them with a line feed. -/
def written (lines : List String) : String := String.join (lines.map fun line ↦ line ++ "\n")

theorem written_append (lines more : List String) :
    written (lines ++ more) = written lines ++ written more := by
  rw [written, List.map_append, String.join_append, written, written]

@[simp] theorem written_nil : written [] = "" := rfl

/-- Whatever is written leaves a trace. -/
theorem written_ne_empty {lines : List String} (h : lines ≠ []) : written lines ≠ "" := by
  obtain ⟨line, rest, rfl⟩ := List.exists_cons_of_ne_nil h
  intro hempty
  have hlength := congrArg String.length hempty
  rw [written, List.map_cons, String.join_cons, String.length_append, String.length_append] at hlength
  have hfeed : "\n".length = 1 := rfl
  have hnone : "".length = 0 := rfl
  omega

theorem append_eq_self_iff (a b : String) : a ++ b = a ↔ b = "" := by
  constructor
  · intro h
    have hlength := congrArg String.length h
    rw [String.length_append] at hlength
    rw [← String.length_eq_zero_iff]
    omega
  · rintro rfl
    exact String.append_empty

/-! ## What the levels add -/

namespace Summary

/-- Some process finished some section. -/
def AnyCalled (s : Summary) : Prop := ∃ t ∈ s.sections, t.WasCalled

theorem hasCalls_iff (s : Summary) : s.hasCalls = true ↔ s.AnyCalled := by
  rw [hasCalls, List.any_eq_true, AnyCalled]
  simp only [SectionSummary.hasCalls_iff]

theorem hasCalls_eq_false_iff (s : Summary) : s.hasCalls = false ↔ ¬s.AnyCalled := by
  rw [← hasCalls_iff, Bool.not_eq_true]

end Summary

/-- The lines of the processes: every section has its label and one line for each rank. -/
def rankListing (sections : List SectionSummary) : List String :=
  sections.flatMap fun t ↦ ("  " ++ t.label) ::
    t.samples.mapIdx fun rank sample ↦ RankRow.line ⟨rank, sample, sample.speed? t.unitKind⟩

/-- The lines of the counters: every section has its label and one line for each hardware event. -/
def counterListing (events : List String) (sections : List SectionSummary) : List String :=
  sections.flatMap fun t ↦ ("  " ++ t.label) ::
    events.mapIdx fun i event ↦
      CounterRow.line ⟨event, t.counterTotals.count i, t.counters.map fun reading ↦ reading.count i⟩

theorem map_mapIdx {α β γ : Type} (f : ℕ → α → β) (g : β → γ) (list : List α) :
    (list.mapIdx f).map g = list.mapIdx fun i a ↦ g (f i a) := by
  rw [List.mapIdx_eq_zipIdx_map, List.map_map, List.mapIdx_eq_zipIdx_map]
  rfl

namespace Report

theorem rankPart_eq (t : SectionSummary) :
    rankPart t = ("  " ++ t.label) ::
      t.samples.mapIdx fun rank sample ↦ RankRow.line ⟨rank, sample, sample.speed? t.unitKind⟩ := by
  rw [rankPart, SectionSummary.rankRows, map_mapIdx]

theorem counterPart_eq (events : List String) (t : SectionSummary) :
    counterPart events t = ("  " ++ t.label) ::
      events.mapIdx fun i event ↦ CounterRow.line
        ⟨event, t.counterTotals.count i, t.counters.map fun reading ↦ reading.count i⟩ := by
  rw [counterPart, SectionSummary.counterRows, map_mapIdx]

theorem rankLines_eq (r : Report) :
    r.rankLines = ["", "Per-process detail:"] ++ rankListing r.listed := by
  rw [rankLines, rankListing, funext rankPart_eq]

theorem counterLines_eq (r : Report) :
    r.counterLines = ["", "Hardware counters (" ++ r.summary.settings.volumeMode.name ++ "):"] ++
      counterListing r.summary.events r.listed := by
  rw [counterLines, counterListing, funext (counterPart_eq _)]

/-- The sections that are listed are those of the rows, the exclusive ones first. -/
theorem map_some_listed (r : Report) :
    r.listed.map some = (r.exclusivePlaces ++ r.otherPlaces).map (r.summary.sections[·]?) := by
  have hothers : r.calledOthers.map some = r.otherPlaces.map (r.summary.sections[·]?) := by
    rw [calledOthers, ← map_fst_zipIdx_filter]
    exact Placed.map_some (placed_zipIdx_filter _ _)
  rw [listed, List.map_append, List.map_append, calledExclusive_eq, hothers,
    r.placed_exclusivePlaced.map_some, exclusivePlaces]

/-! ## Levels -/

variable (s : Summary) (order : ReportOrder)

/-- What a report shows at every level. -/
def commonLines : List String :=
  if s.hasCalls then
    titleLines ⟨s, order, .basic⟩ ++ exclusiveLines ⟨s, order, .basic⟩ ++ otherLines ⟨s, order, .basic⟩
  else ["No section statistics captured."]

/-- What a report of the second level shows of the processes. -/
def detailLines : List String := if s.hasCalls then rankLines ⟨s, order, .basic⟩ else []

/-- What a report of the third level shows of the hardware events. -/
def fullLines : List String :=
  if s.hasCalls && !s.events.isEmpty then counterLines ⟨s, order, .basic⟩ else []

/-- The text of a report does not depend on the level but for the parts it includes. -/
theorem text_eq (level : ReportLevel) :
    text ⟨s, order, level⟩ = written (commonLines s order) ++
      (if level.includes .detail then written (detailLines s order) else "") ++
      (if level.includes .full then written (fullLines s order) else "") := by
  have hlines : lines ⟨s, order, level⟩ = commonLines s order ++
      (if level.includes .detail then detailLines s order else []) ++
      (if level.includes .full then fullLines s order else []) := by
    rw [lines, commonLines, detailLines, fullLines]
    cases s.hasCalls with
    | false => cases level <;> rfl
    | true => cases s.events.isEmpty <;> cases level <;> rfl
  rw [text, hlines]
  change written _ = _
  rw [written_append, written_append]
  split_ifs <;> rfl

theorem text_detail :
    text ⟨s, order, .detail⟩ = text ⟨s, order, .basic⟩ ++ written (detailLines s order) := by
  rw [text_eq, text_eq]
  simp [ReportLevel.includes, ReportLevel.rank]

theorem text_full :
    text ⟨s, order, .full⟩ = text ⟨s, order, .detail⟩ ++ written (fullLines s order) := by
  rw [text_eq, text_eq]
  simp [ReportLevel.includes, ReportLevel.rank]

theorem fullLines_eq_nil_iff : fullLines s order = [] ↔ ¬s.AnyCalled ∨ s.events = [] := by
  rw [fullLines, ← s.hasCalls_eq_false_iff, ← List.isEmpty_iff (l := s.events)]
  cases s.hasCalls with
  | false => exact iff_of_true rfl (.inl rfl)
  | true =>
    cases s.events.isEmpty with
    | false =>
      exact iff_of_false (fun h ↦ List.cons_ne_nil _ _ h) (by rintro (h | h) <;> cases h)
    | true => exact iff_of_true rfl (.inr rfl)

/-- What the second and the third level of a report write after the text of the level below. -/
structure Additions (shown : List SectionSummary) (ranks counters : List String) : Prop where
  detail : text ⟨s, order, .detail⟩ = text ⟨s, order, .basic⟩ ++ written ranks
  full : text ⟨s, order, .full⟩ = text ⟨s, order, .detail⟩ ++ written counters
  ranks_eq (h : s.AnyCalled) : ranks = ["", "Per-process detail:"] ++ rankListing shown
  ranks_eq_nil (h : ¬s.AnyCalled) : ranks = []
  counters_eq (h : s.AnyCalled) (hevents : s.events ≠ []) :
    counters = ["", "Hardware counters (" ++ s.settings.volumeMode.name ++ "):"] ++
      counterListing s.events shown
  full_eq_detail_iff :
    text ⟨s, order, .full⟩ = text ⟨s, order, .detail⟩ ↔ ¬s.AnyCalled ∨ s.events = []

theorem additions :
    Additions s order (listed ⟨s, order, .basic⟩) (detailLines s order) (fullLines s order) where
  detail := text_detail s order
  full := text_full s order
  ranks_eq h := by rw [detailLines, if_pos (s.hasCalls_iff.mpr h), rankLines_eq]
  ranks_eq_nil h := by
    rw [detailLines, s.hasCalls_eq_false_iff.mpr h]
    rfl
  counters_eq h hevents := by
    rw [fullLines, s.hasCalls_iff.mpr h, List.isEmpty_eq_false_iff.mpr hevents]
    exact counterLines_eq _
  full_eq_detail_iff := by
    rw [text_full, append_eq_self_iff, ← fullLines_eq_nil_iff s order]
    constructor
    · exact fun h ↦ not_imp_not.mp written_ne_empty h
    · intro h
      rw [h, written_nil]

/-- **Levels.** Every level writes something after the text of the level below it: the second level
the lines of all processes and the third one those of all hardware events, for the sections of the
rows and in their order. The third level adds nothing exactly if no section was called or there are
no hardware events. -/
theorem levels_cumulative :
    ∃ (exclusive others : List ℕ) (shown : List SectionSummary) (ranks counters : List String),
      (∀ level, Shows s (fun t ↦ t.exclusive = true ∧ t.label ≠ "") exclusive
        (exclusiveRows ⟨s, order, level⟩)) ∧
      (∀ level, Shows s (fun t ↦ t.exclusive = false) others (otherRows ⟨s, order, level⟩)) ∧
      shown.map some = (exclusive ++ others).map (s.sections[·]?) ∧
      Additions s order shown ranks counters :=
  ⟨exclusivePlaces ⟨s, order, .basic⟩, otherPlaces ⟨s, order, .basic⟩, listed ⟨s, order, .basic⟩,
    detailLines s order, fullLines s order, fun level ↦ shows_exclusiveRows ⟨s, order, level⟩,
    fun level ↦ shows_otherRows ⟨s, order, level⟩, map_some_listed _, additions s order⟩

end Report

end SectionMonitor
