import SectionMonitor.Proofs.MergeOrder
import SectionMonitor.Proofs.ReportLevels

/-!
# Totals of counters

The counters of threads, intervals, replicas and processes are all added up by one function, two
readings at a time. A count that no longer fits stops at the largest one, so an addition can lose
something, and readings need not be of the same length. Still, neither the order nor the grouping of
the additions shows in the result: as long as something is lost the largest count stands there, and
what would be added to it is lost as well (`Reading.SumsTo.append`).

A way to add readings up is a tree (`Reading.Additions`). The result of every tree is the sum of its
readings as it is defined without regard to any order, `Reading.SumsTo`, and there is only one such
sum. In particular a report shows for every event the sum of what it shows for the processes
(`Reading.additions_in_any_order`).
-/

namespace SectionMonitor

namespace Reading

/-! ## Sums -/

/-- The sum of some readings is as long as the longest of them. For every event it has the exact sum
of the counts, or the largest count if that does not fit; a count that is missing is zero. -/
structure SumsTo (readings : List Reading) (sum : Reading) : Prop where
  length_eq : sum.length = (readings.map List.length).foldl max 0
  count_eq : ∀ event, (sum.count event).toNat
    = min (2 ^ 64 - 1) (readings.map fun r ↦ (r.count event).toNat).sum

namespace SumsTo

variable {readings others : List Reading} {sum other : Reading}

theorem unique (h : SumsTo readings sum) (h' : SumsTo readings other) : sum = other :=
  ext_count (h.length_eq.trans h'.length_eq.symm)
    fun event ↦ (h.count_eq event).trans (h'.count_eq event).symm

theorem perm (h : SumsTo readings sum) (hperm : readings.Perm others) : SumsTo others sum where
  length_eq := by rw [h.length_eq, (hperm.map _).foldl_eq]
  count_eq event := by rw [h.count_eq, (hperm.map _).sum_eq]

theorem nil : SumsTo [] [] := ⟨rfl, fun _ ↦ rfl⟩

theorem singleton (r : Reading) : SumsTo [r] r where
  length_eq := (Nat.zero_max _).symm
  count_eq event := by
    have hlt := (r.count event).toNat_lt
    rw [List.map_singleton, List.sum_singleton]
    omega

/-- **Adding two sums.** Where one of them has stopped at the largest count, so does the result. -/
theorem append (h : SumsTo readings sum) (h' : SumsTo others other) :
    SumsTo (readings ++ others) (sum.accumulate other) where
  length_eq := by
    rw [length_accumulate, h.length_eq, h'.length_eq, List.map_append, List.foldl_append,
      foldl_max_eq ((readings.map List.length).foldl max 0)]
  count_eq event := by
    rw [count_accumulate, Count.toNat_saturatingAdd, h.count_eq, h'.count_eq, List.map_append,
      List.sum_append, Count.limit]
    omega

end SumsTo

/-- Adding one reading after the other makes their sum. -/
theorem sumsTo_total (readings : List Reading) : SumsTo readings (total readings) where
  length_eq := (growsBy_total [] readings).length_eq
  count_eq event := by
    have hcount := (growsBy_total [] readings).count_eq event
    have hzero : (count [] event).toNat = 0 := rfl
    rwa [hzero, Nat.zero_add, Nat.min_comm] at hcount

/-! ## Additions in any grouping -/

/-- A way to add up readings, two at a time. -/
inductive Additions where
  | none
  | single (r : Reading)
  | both (a b : Additions)

namespace Additions

/-- The readings that are added up, from left to right. -/
def readings : Additions → List Reading
  | none => []
  | single r => [r]
  | both a b => a.readings ++ b.readings

/-- What comes out. -/
def result : Additions → Reading
  | none => []
  | single r => r
  | both a b => a.result.accumulate b.result

theorem sumsTo_result (a : Additions) : SumsTo a.readings a.result := by
  induction a with
  | none => exact .nil
  | single r => exact .singleton r
  | both a b iha ihb => exact iha.append ihb

end Additions

end Reading

/-! ## Rows of counters -/

namespace SectionSummary

theorem map_event_counterRows (s : SectionSummary) (events : List String) :
    (s.counterRows events).map CounterRow.event = events := by
  rw [counterRows, map_mapIdx, List.mapIdx_eq_zipIdx_map]
  exact List.zipIdx_map_fst ..

/-- The total of a row is the sum of the counts that stand beside it. -/
theorem total_of_mem_counterRows {s : SectionSummary} {events : List String} {row : CounterRow}
    (h : row ∈ s.counterRows events) :
    row.total.toNat = min (2 ^ 64 - 1) (row.perRank.map UInt64.toNat).sum := by
  obtain ⟨i, hi, rfl⟩ := List.mem_mapIdx.mp h
  rw [List.map_map]
  exact (Reading.sumsTo_total s.counters).count_eq i

end SectionSummary

namespace Reading

/-- **Adding up counters.** Readings may be added up one after the other, as a program does, or in
any other order and grouping. The result is the same: it is as long as the longest reading and has
for every event the exact sum of the counts, or the largest count if that does not fit. So every
section has a row for each event, with the sum of the counts of all processes. -/
theorem additions_in_any_order :
    (∀ (readings : List Reading) (a : Additions), a.readings.Perm readings →
      SumsTo readings a.result ∧ a.result = total readings) ∧
    ∀ (s : SectionSummary) (events : List String),
      (s.counterRows events).map CounterRow.event = events ∧
        ∀ row ∈ s.counterRows events,
          row.total.toNat = min (2 ^ 64 - 1) (row.perRank.map UInt64.toNat).sum := by
  refine ⟨fun readings a hperm ↦ ?_, fun s events ↦ ⟨s.map_event_counterRows events, ?_⟩⟩
  · have hsum : SumsTo readings a.result := a.sumsTo_result.perm hperm
    exact ⟨hsum, hsum.unique (sumsTo_total readings)⟩
  · exact fun row hrow ↦ SectionSummary.total_of_mem_counterRows hrow

/-- A section that three processes have counted loads in, the second one as many as a count can
hold. -/
def loaded : SectionSummary where
  label := "kernel"
  properties := {}
  source := .userSupplied
  samples := [⟨1, 0, 1⟩, ⟨1, 0, 1⟩, ⟨1, 0, 1⟩]
  counters := [[1, 2], [18446744073709551615, 20, 30], [5]]

/-- The readings of the processes from the last to the first, in two groups. -/
def backwards : Additions :=
  .both (.both (.single [5]) .none) (.both (.single [18446744073709551615, 20, 30]) (.single [1, 2]))

/-- The largest count stays where it is, and the shorter readings count zero. -/
theorem backwards_adds_up :
    backwards.readings.Perm loaded.counters ∧
      backwards.result = [18446744073709551615, 22, 30] ∧
      ⟨"loads", 18446744073709551615, [1, 18446744073709551615, 5]⟩ ∈ loaded.counterRows ["loads"] ∧
      (18446744073709551615 : UInt64).toNat
        = min (2 ^ 64 - 1) ([1, 18446744073709551615, 5].map UInt64.toNat).sum := by
  obtain ⟨hadditions, hrows⟩ := additions_in_any_order
  have hperm : backwards.readings.Perm loaded.counters := by decide +kernel
  have hrow : ⟨"loads", 18446744073709551615, [1, 18446744073709551615, 5]⟩
      ∈ loaded.counterRows ["loads"] := by decide +kernel
  refine ⟨hperm, ?_, hrow, (hrows loaded ["loads"]).2 _ hrow⟩
  rw [(hadditions loaded.counters backwards hperm).2]
  decide +kernel

end Reading

end SectionMonitor
