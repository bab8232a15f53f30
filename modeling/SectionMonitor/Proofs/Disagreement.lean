import SectionMonitor.Proofs.FloatAmounts
import SectionMonitor.Proofs.IntervalTime
import SectionMonitor.Proofs.ReportRows
import SectionMonitor.Report.Text

/-!
# Sections on whose calls the processes disagree

Every process should finish an exclusive section equally often. Each number of calls is compared with
the one of the next process only, but that is enough: neighbours that are equal make all equal
(`SectionSummary.allSame_iff`). If some differ, there are no statistics, and whatever is made of them
is missing from the row of the section. The longest time of a communication section is no mean, and is
reported all the same.

What is missing can have no influence. `SectionSummary.Alike` says of two sections that they do not
differ in anything that a ranking or a percentage looks at. A section without statistics is like itself
with any other times and volumes, so these may be replaced in a summary, and the ranking and the sum of
the percentages stay as they were (`SectionSummary.calls_decide_statistics`).
-/

namespace SectionMonitor

open Binary64 (le_iff isAmount_zero beq_of_le_of_le)

/-! ## The longest time -/

/-- Going through numbers, the largest one so far is kept. -/
theorem foldl_larger {xs : List Float} {m : Float} (hm : m.isNaN = false)
    (hxs : ∀ x ∈ xs, x.isNaN = false) :
    let result := xs.foldl (fun m x ↦ if m < x then x else m) m
    m ≤ result ∧ (∀ x ∈ xs, x ≤ result) ∧ (result = m ∨ result ∈ xs) := by
  induction xs generalizing m with
  | nil => exact ⟨Binary64.le_refl hm, nofun, .inl rfl⟩
  | cons x rest ih =>
    obtain ⟨hx, hrest⟩ := List.forall_mem_cons.mp hxs
    rw [List.foldl_cons]
    split_ifs with hlt
    · obtain ⟨hbound, hall, hmem⟩ := ih hx hrest
      exact ⟨Binary64.le_trans (Binary64.le_of_lt hlt) hbound,
        List.forall_mem_cons.mpr ⟨hbound, hall⟩, .inr (List.mem_cons.mpr hmem)⟩
    · obtain ⟨hbound, hall, hmem⟩ := ih hm hrest
      have hle : x ≤ m := Binary64.le_of_not_lt hm hx hlt
      exact ⟨hbound, List.forall_mem_cons.mpr ⟨Binary64.le_trans hle hbound, hall⟩,
        hmem.imp_right (List.mem_cons_of_mem x)⟩

/-- **The largest.** Of numbers that are not negative the largest one is found, and zero if there are
none. -/
theorem largest_spec {xs : List Float} (hxs : ∀ x ∈ xs, 0 ≤ x) :
    (∀ x ∈ xs, x ≤ largest xs) ∧ (xs = [] → largest xs = 0) ∧
      (xs ≠ [] → ∃ x ∈ xs, (largest xs == x) = true) := by
  have hnan : ∀ x ∈ xs, x.isNaN = false := fun x hx ↦ ((le_iff 0 x).mp (hxs x hx)).2.1
  obtain ⟨-, hall, hmem⟩ : 0 ≤ largest xs ∧ (∀ x ∈ xs, x ≤ largest xs) ∧
      (largest xs = 0 ∨ largest xs ∈ xs) := foldl_larger isAmount_zero.isNaN_eq_false hnan
  refine ⟨hall, ?empty, ?attained⟩
  case empty =>
    rintro rfl
    rfl
  case attained =>
    intro hne
    rcases hmem with hzero | hmem
    · -- Nothing exceeds zero, so every number is a zero.
      obtain ⟨x, hx⟩ := List.exists_mem_of_ne_nil xs hne
      have hle : largest xs ≤ x := hzero ▸ hxs x hx
      exact ⟨x, hx, beq_of_le_of_le hle (hall x hx)⟩
    · have hself := Binary64.le_refl (hnan _ hmem)
      exact ⟨_, hmem, beq_of_le_of_le hself hself⟩

namespace SectionSummary

variable {s s' : SectionSummary}

/-! ## Agreement on calls -/

theorem allSame_iff {counts : List Count} :
    allSame counts = true ↔ ∀ a ∈ counts, ∀ b ∈ counts, a = b := by
  constructor
  · intro h
    cases counts with
    | nil => nofun
    | cons first rest =>
      have hfirst : ∀ c ∈ first :: rest, c = first :=
        List.forall_mem_cons.mpr ⟨rfl, eq_of_allSame h⟩
      exact fun a ha b hb ↦ (hfirst a ha).trans (hfirst b hb).symm
  · intro h
    induction counts with
    | nil => rfl
    | cons first rest ih =>
      cases rest with
      | nil => rfl
      | cons second rest =>
        have hneighbours : first = second :=
          h first List.mem_cons_self second (List.mem_cons_of_mem _ List.mem_cons_self)
        rw [allSame, Bool.and_eq_true, beq_iff_eq]
        exact ⟨hneighbours, ih fun a ha b hb ↦
          h a (List.mem_cons_of_mem _ ha) b (List.mem_cons_of_mem _ hb)⟩

theorem isConsistent_iff (s : SectionSummary) :
    s.isConsistent = true ↔
      s.exclusive = false ∨ ∀ a ∈ s.samples, ∀ b ∈ s.samples, a.calls = b.calls := by
  rw [isConsistent, Bool.or_eq_true, Bool.not_eq_true', allSame_iff, callCounts]
  simp only [List.forall_mem_map]

theorem isSome_statistics?_iff (s : SectionSummary) :
    s.statistics?.isSome = true ↔ s.isConsistent = true ∧ s.samples ≠ [] := by
  constructor
  · intro h
    obtain ⟨t, ht⟩ := Option.isSome_iff_exists.mp h
    exact consistent_of_statistics? ht
  · intro ⟨hconsistent, hsamples⟩
    rw [statistics?, if_pos (by simpa [hconsistent] using hsamples)]
    rfl

theorem statistics?_of_inconsistent (h : s.isConsistent = false) : s.statistics? = none := by
  rw [← Option.not_isSome_iff_eq_none, isSome_statistics?_iff, h]
  exact fun hboth ↦ Bool.noConfusion hboth.1

/-- The longest time of a section that communicates: no process took longer, and some process took as
long. Without any process it is zero. -/
structure IsLongest (s : SectionSummary) (t : Float) : Prop where
  le : ∀ a ∈ s.samples, a.elapsed ≤ t
  eq_zero : s.samples = [] → t = 0
  attained : s.samples ≠ [] → ∃ a ∈ s.samples, (t == a.elapsed) = true

theorem exists_communicationTime? (hkind : s.kind = .communication)
    (htimes : ∀ a ∈ s.samples, 0 ≤ a.elapsed) :
    ∃ t, s.communicationTime? = some t ∧ s.IsLongest t := by
  have hnonneg : ∀ x ∈ s.samples.map Sample.elapsed, 0 ≤ x := List.forall_mem_map.mpr htimes
  obtain ⟨hle, hempty, hattained⟩ := largest_spec hnonneg
  refine ⟨_, if_pos hkind, List.forall_mem_map.mp hle, ?_, ?_⟩
  · exact fun hsamples ↦ hempty (by rw [hsamples, List.map_nil])
  · intro hsamples
    obtain ⟨x, hx, heq⟩ := hattained (mt List.map_eq_nil_iff.mp hsamples)
    obtain ⟨a, ha, rfl⟩ := List.mem_map.mp hx
    exact ⟨a, ha, heq⟩

end SectionSummary

/-! ## What is missing without statistics -/

/-- The row has none of the numbers that are made of means and deviations. -/
structure SectionRow.Unmeasured (row : SectionRow) : Prop where
  meanTime_eq : row.meanTime = none
  deviationTime_eq : row.deviationTime = none
  percent_eq : row.percent = none
  timePerCall_eq : row.timePerCall = none
  speed_eq : row.speed = none

theorem SectionRow.unmeasured_ofSection {s : SectionSummary} (h : s.statistics? = none)
    (totalTime : Float) : (ofSection totalTime s).Unmeasured where
  meanTime_eq := congrArg (Option.map Statistics.meanTime) h
  deviationTime_eq := congrArg (Option.map Statistics.deviationTime) h
  percent_eq := by rw [ofSection, SectionSummary.percentOf?, h, Option.bind_none]
  timePerCall_eq := by rw [ofSection, SectionSummary.timePerCall?, h, Option.bind_none]
  speed_eq := by
    rw [ofSection, SectionSummary.normalizedSpeed?, SectionSummary.speed?, h, Option.bind_none]
    rfl

namespace SectionSummary

variable {s s' : SectionSummary} {elapsed volume : ℕ → Float}

/-- The sections do not differ in anything that a ranking or a percentage looks at. -/
structure Alike (s s' : SectionSummary) : Prop where
  label_eq : s'.label = s.label
  properties_eq : s'.properties = s.properties
  statistics_eq : s'.statistics? = s.statistics?
  hasCalls_eq : s'.hasCalls = s.hasCalls

namespace Alike

theorem refl (s : SectionSummary) : s.Alike s := ⟨rfl, rfl, rfl, rfl⟩

theorem admits_eq (h : s.Alike s') : Ranking.admits s' = Ranking.admits s := by
  rw [Ranking.admits, Ranking.admits, exclusive, exclusive, h.label_eq, h.properties_eq]

theorem meanTime_eq (h : s.Alike s') : Ranking.meanTime? s' = Ranking.meanTime? s := by
  rw [Ranking.meanTime?, Ranking.meanTime?, h.statistics_eq]

theorem percent_eq (h : s.Alike s') (totalTime : Float) :
    (SectionRow.ofSection totalTime s').percent = (SectionRow.ofSection totalTime s).percent := by
  rw [SectionRow.ofSection, SectionRow.ofSection, percentOf?, percentOf?, h.statistics_eq]

end Alike

/-- The section as if its processes had measured other times and volumes in the same calls. -/
def remeasured (s : SectionSummary) (elapsed volume : ℕ → Float) : SectionSummary :=
  { s with samples := s.samples.mapIdx fun rank a ↦ ⟨elapsed rank, volume rank, a.calls⟩ }

theorem callCounts_remeasured : (s.remeasured elapsed volume).callCounts = s.callCounts := by
  rw [callCounts, callCounts, remeasured, List.mapIdx_eq_zipIdx_map, List.map_map]
  conv_rhs => rw [← List.zipIdx_map_fst 0 s.samples, List.map_map]
  rfl

/-- Where there are no statistics, no time or volume can be told. -/
theorem alike_remeasured (h : s.isConsistent = false) :
    s.Alike (s.remeasured elapsed volume) where
  label_eq := rfl
  properties_eq := rfl
  statistics_eq := by
    have hinconsistent : (s.remeasured elapsed volume).isConsistent = false := by
      rw [← h, isConsistent, isConsistent, callCounts_remeasured]
      rfl
    rw [statistics?_of_inconsistent h, statistics?_of_inconsistent hinconsistent]
  hasCalls_eq := by rw [hasCalls, hasCalls, callCounts_remeasured]

end SectionSummary

/-! ## Other sections in their places -/

namespace Summary

variable {s : Summary} {f : ℕ → SectionSummary → SectionSummary}

/-- The summary with another section in every place. -/
def mapSections (s : Summary) (f : ℕ → SectionSummary → SectionSummary) : Summary :=
  { s with sections := s.sections.mapIdx f }

theorem zipIdx_mapSections :
    (s.mapSections f).sections.zipIdx = s.sections.zipIdx.map fun x ↦ (f x.2 x.1, x.2) := by
  refine List.ext_getElem? fun p ↦ ?_
  rw [mapSections, List.getElem?_zipIdx, List.getElem?_mapIdx, List.getElem?_map,
    List.getElem?_zipIdx, Option.map_map, Option.map_map]
  simp only [Function.comp_def, Nat.zero_add]

/-- Every section is replaced by one that is like it. -/
def Retains (s : Summary) (f : ℕ → SectionSummary → SectionSummary) : Prop :=
  ∀ (p : ℕ) (t : SectionSummary), s.sections[p]? = some t → t.Alike (f p t)

theorem Retains.alike (h : s.Retains f) {x : SectionSummary × ℕ} (hx : x ∈ s.sections.zipIdx) :
    x.1.Alike (f x.2 x.1) :=
  h x.2 x.1 (List.mem_zipIdx_iff_getElem?.mp hx)

/-- Sections that are alike are selected alike. -/
theorem Retains.filter_zipIdx (h : s.Retains f) {keep : SectionSummary → Bool}
    (hkeep : ∀ t t' : SectionSummary, t.Alike t' → keep t' = keep t) :
    ((s.mapSections f).sections.zipIdx).filter (fun x ↦ keep x.1)
      = ((s.sections.zipIdx).filter fun x ↦ keep x.1).map fun x ↦ (f x.2 x.1, x.2) := by
  rw [zipIdx_mapSections, List.filter_map]
  exact congrArg _ (List.filter_congr fun x hx ↦ hkeep _ _ (h.alike hx))

theorem Retains.rankedSections_eq (h : s.Retains f) :
    (s.mapSections f).rankedSections = s.rankedSections.map fun x ↦ (f x.2 x.1, x.2) := by
  rw [rankedSections, h.filter_zipIdx fun _ _ halike ↦ halike.admits_eq, rankedSections]
  refine (List.map_mergeSort fun x hx y hy ↦ ?_).symm
  rw [(h.alike (List.mem_of_mem_filter hx)).meanTime_eq,
    (h.alike (List.mem_of_mem_filter hy)).meanTime_eq]

/-- **The ranking** does not change. -/
theorem Retains.ranking_eq (h : s.Retains f) : (s.mapSections f).ranking = s.ranking := by
  rw [ranking, h.rankedSections_eq, List.map_map]
  rfl

end Summary

namespace Report

variable {s : Summary} {f : ℕ → SectionSummary → SectionSummary}

theorem exclusivePlaced_mapSections (h : s.Retains f) (order : ReportOrder) (level : ReportLevel) :
    exclusivePlaced ⟨s.mapSections f, order, level⟩
      = (exclusivePlaced ⟨s, order, level⟩).map fun x ↦ (f x.2 x.1, x.2) := by
  have hcalls {placed : List (SectionSummary × ℕ)} (hplaced : Placed s.sections placed) :
      (placed.map fun x ↦ (f x.2 x.1, x.2)).filter (fun x ↦ x.1.hasCalls)
        = (placed.filter fun x ↦ x.1.hasCalls).map fun x ↦ (f x.2 x.1, x.2) := by
    rw [List.filter_map]
    exact congrArg _ (List.filter_congr fun x hx ↦ (h x.2 x.1 (hplaced x hx)).hasCalls_eq)
  cases order with
  | byTime =>
    rw [exclusivePlaced, exclusivePlaced]
    dsimp only
    rw [h.rankedSections_eq, hcalls fun x hx ↦ Summary.getElem?_of_mem_rankedSections hx]
  | byRegistration =>
    rw [exclusivePlaced, exclusivePlaced]
    dsimp only
    rw [h.filter_zipIdx fun _ _ halike ↦ halike.admits_eq, hcalls (placed_zipIdx_filter _ _)]

/-- **The sum of the percentages** does not change. -/
theorem covered_mapSections (h : s.Retains f) (order : ReportOrder) (level : ReportLevel) :
    covered ⟨s.mapSections f, order, level⟩ = covered ⟨s, order, level⟩ := by
  have htotal : (s.mapSections f).totalTime = s.totalTime := rfl
  have hpercent : ∀ x ∈ exclusivePlaced ⟨s, order, level⟩,
      (SectionRow.ofSection s.totalTime (f x.2 x.1)).percent
        = (SectionRow.ofSection s.totalTime x.1).percent :=
    fun x hx ↦ (h x.2 x.1 (placed_exclusivePlaced _ x hx)).percent_eq _
  rw [covered, covered, exclusiveRows, exclusiveRows, calledExclusive_eq, calledExclusive_eq,
    exclusivePlaced_mapSections h, htotal]
  simp only [List.map_map, List.filterMap_map]
  exact congrArg sum (List.filterMap_congr hpercent)

end Report

/-! ## The whole -/

/-- The summary as if the processes had measured other times and volumes in one section. -/
def Summary.remeasured (s : Summary) (place : ℕ) (elapsed volume : ℕ → Float) : Summary :=
  s.mapSections fun p t ↦ if p = place then t.remeasured elapsed volume else t

theorem Summary.retains_remeasured {s : Summary} {place : ℕ} {t : SectionSummary}
    (hplace : s.sections[place]? = some t) (h : t.isConsistent = false)
    (elapsed volume : ℕ → Float) :
    s.Retains fun p t ↦ if p = place then t.remeasured elapsed volume else t := by
  intro p t' ht'
  dsimp only
  split_ifs with hp
  · subst hp
    obtain rfl : t = t' := Option.some.inj (hplace.symm.trans ht')
    exact SectionSummary.alike_remeasured h
  · exact .refl t'

/-- **Disagreement on calls.** A section is consistent if it is not exclusive or if any two processes
have made the same number of calls. It has statistics if it is consistent and there is a process. The
longest time of a section that communicates is known in any case. A section that is not consistent has
a row without the numbers that are made of statistics, and what was measured in its calls makes no
difference to the ranking and to the sum of the percentages. -/
theorem SectionSummary.calls_decide_statistics (s : SectionSummary) :
    (s.isConsistent = true ↔
      s.exclusive = false ∨ ∀ a ∈ s.samples, ∀ b ∈ s.samples, a.calls = b.calls) ∧
    (s.statistics?.isSome = true ↔ s.isConsistent = true ∧ s.samples ≠ []) ∧
    (s.kind = .communication → (∀ a ∈ s.samples, 0 ≤ a.elapsed) →
      ∃ t, s.communicationTime? = some t ∧ s.IsLongest t) ∧
    (s.isConsistent = false →
      (∀ totalTime, (SectionRow.ofSection totalTime s).Unmeasured) ∧
      ∀ (summary : Summary) (place : ℕ) (elapsed volume : ℕ → Float),
        summary.sections[place]? = some s →
          (summary.remeasured place elapsed volume).ranking = summary.ranking ∧
          ∀ order level, Report.covered ⟨summary.remeasured place elapsed volume, order, level⟩
            = Report.covered ⟨summary, order, level⟩) := by
  refine ⟨s.isConsistent_iff, s.isSome_statistics?_iff, exists_communicationTime?, fun h ↦ ⟨?_, ?_⟩⟩
  · exact SectionRow.unmeasured_ofSection (statistics?_of_inconsistent h)
  · intro summary place elapsed volume hplace
    have hretains := Summary.retains_remeasured hplace h elapsed volume
    exact ⟨hretains.ranking_eq, Report.covered_mapSections hretains⟩

/-- An exchange that one process has finished once and the other one twice. -/
def unequalExchange : SectionSummary where
  label := "halo"
  properties := ⟨.communication, true⟩
  source := .userSupplied
  samples := [⟨1, 8, 1⟩, ⟨3, 8, 2⟩]
  counters := [[], []]

/-- A job that spends its time in the exchange and in a kernel. -/
def unequalJob : Summary where
  rootTimes := [4, 4]
  settings := {}
  events := []
  sections := [unequalExchange, ⟨"kernel", {}, .userSupplied, [⟨1, 2, 1⟩, ⟨1, 2, 1⟩], [[], []]⟩]

/-- The longest exchange took three seconds. If every exchange had taken an hour, the ranking would be
the same, and the exclusive sections would still cover what the kernel covers. -/
theorem unequalExchange_stays_out :
    unequalExchange.isConsistent = false ∧ unequalExchange.statistics?.isSome = false ∧
      unequalExchange.IsLongest 3 ∧ (SectionRow.ofSection 4 unequalExchange).Unmeasured ∧
      (unequalJob.remeasured 0 (fun _ ↦ 3600) fun _ ↦ 0).ranking = unequalJob.ranking ∧
      Report.covered ⟨unequalJob.remeasured 0 (fun _ ↦ 3600) fun _ ↦ 0, .byRegistration, .basic⟩
        = 25 := by
  obtain ⟨-, hsome, hlongest, hmissing⟩ := unequalExchange.calls_decide_statistics
  have hinconsistent : unequalExchange.isConsistent = false := by decide +kernel
  have hthree : unequalExchange.communicationTime? = some 3 := by decide +kernel
  have hkernel : Report.covered ⟨unequalJob, .byRegistration, .basic⟩ = 25 := by decide +kernel
  obtain ⟨t, ht, hlongest⟩ := hlongest rfl (by decide +kernel)
  obtain rfl : t = 3 := Option.some.inj (ht.symm.trans hthree)
  obtain ⟨hrow, hsummary⟩ := hmissing hinconsistent
  obtain ⟨hranking, hcovered⟩ := hsummary unequalJob 0 (fun _ ↦ 3600) (fun _ ↦ 0) rfl
  refine ⟨hinconsistent, ?_, hlongest, hrow 4, hranking, (hcovered _ _).trans hkernel⟩
  rw [← Bool.not_eq_true, hsome, hinconsistent]
  exact fun hboth ↦ Bool.noConfusion hboth.1

end SectionMonitor
