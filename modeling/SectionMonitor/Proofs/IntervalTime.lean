import SectionMonitor.Proofs.FloatValues
import SectionMonitor.Summary.SectionSummary

/-!
# How long an interval takes

A summary says how long an interval of a section took on average. It takes the mean time of the
processes and divides it by the calls of rank zero, as if all processes had made as many calls. For
an exclusive section they have, or there are no statistics. Other sections are not checked, and
there the result is the mean over all intervals only if rank zero has made as many calls as the
processes have on average (`SectionSummary.mean_interval_time_iff`); if it has made none, there is no
result at all.

Whether a quotient is the right one is no question of rounding. So the computation is written down
for any numbers (`Arithmetic`): in floating-point numbers it is that of the summary, and in rational
numbers it is exact.
-/

namespace SectionMonitor

/-! ## One computation in several kinds of numbers -/

/-- The numbers that a mean time is computed with. -/
structure Arithmetic (α : Type) where
  /-- What sums begin with. -/
  start : α
  add : α → α → α
  div : α → α → α
  ofNat : ℕ → α
  ofCount : Count → α

namespace Arithmetic

/-- Floating-point numbers, with rounding in every step. -/
def floating : Arithmetic Float where
  start := -0.0
  add := (· + ·)
  div := (· / ·)
  ofNat := Float.ofNat
  ofCount := UInt64.toFloat

/-- Rational numbers, without rounding. -/
def exact : Arithmetic ℚ where
  start := 0
  add := (· + ·)
  div := (· / ·)
  ofNat n := n
  ofCount c := c.toNat

variable {α : Type} (A : Arithmetic α)

/-- The mean of numbers, if there are any. -/
def mean (numbers : List α) : α := A.div (numbers.foldl A.add A.start) (A.ofNat numbers.length)

/-- The mean time divided by the calls on rank zero, if rank zero has any. -/
def timePerCall? (times : List α) (calls : List Count) : Option α :=
  if 0 < calls.headD 0 then some (A.div (A.mean times) (A.ofCount (calls.headD 0))) else none

/-- Without rounding the result is what it looks like. -/
theorem exact_timePerCall? (times : List ℚ) (calls : List Count) :
    exact.timePerCall? times calls
      = if 0 < calls.headD 0 then some (times.sum / (times.length * (calls.headD 0).toNat))
        else none := by
  have hsum : times.foldl exact.add exact.start = times.sum := List.sum_eq_foldl.symm
  have hmean : exact.mean times = times.sum / times.length := by
    rw [mean, hsum]
    rfl
  rw [timePerCall?, hmean]
  split_ifs
  · exact congrArg some (div_div _ _ _)
  · rfl

/-- **Two quotients of one sum.** The result is the sum divided by a number of intervals if it is
divided by this number, or if the sum is zero. -/
theorem exact_timePerCall?_eq_iff (times : List ℚ) (calls : List Count) (intervals : ℕ) :
    exact.timePerCall? times calls = some (times.sum / intervals) ↔
      0 < calls.headD 0 ∧
        (times.sum = 0 ∨ (calls.headD 0).toNat * times.length = intervals) := by
  rw [exact_timePerCall?]
  split_ifs with hcalls
  · have hdivisors : (times.length * (calls.headD 0).toNat : ℚ) = intervals ↔
        (calls.headD 0).toNat * times.length = intervals := by
      rw [mul_comm]
      exact_mod_cast Iff.rfl
    rw [Option.some_inj, div_eq_mul_inv, div_eq_mul_inv, mul_eq_mul_left_iff, inv_inj, hdivisors,
      or_comm]
    exact (and_iff_right hcalls).symm
  · exact iff_of_false nofun fun hboth ↦ hcalls hboth.1

end Arithmetic

/-! ## The calls of all processes -/

namespace SectionSummary

variable {s : SectionSummary} {t : Statistics}

/-- How many intervals all processes have finished together. -/
def intervals (s : SectionSummary) : ℕ := (s.callCounts.map UInt64.toNat).sum

theorem length_callCounts (s : SectionSummary) : s.callCounts.length = s.samples.length :=
  List.length_map ..

/-- Neighbours that are equal make all equal. -/
theorem eq_of_allSame {counts : List Count} {first : Count}
    (h : allSame (first :: counts) = true) : ∀ c ∈ counts, c = first := by
  induction counts generalizing first with
  | nil => simp
  | cons second rest ih =>
    rw [allSame, Bool.and_eq_true, beq_iff_eq] at h
    obtain ⟨rfl, hrest⟩ := h
    intro c hc
    rcases List.mem_cons.mp hc with rfl | hc
    · rfl
    · exact ih hrest c hc

theorem consistent_of_statistics? (h : s.statistics? = some t) :
    s.isConsistent = true ∧ s.samples ≠ [] := by
  rw [statistics?] at h
  split_ifs at h with hboth
  simpa using hboth

/-- If any process has finished an interval, so have all together. -/
theorem intervals_pos (hcalled : s.hasCalls = true) : 0 < s.intervals := by
  rw [hasCalls, List.any_eq_true] at hcalled
  obtain ⟨c, hc, hpos⟩ := hcalled
  have hle : c.toNat ≤ s.intervals := List.le_sum_of_mem (List.mem_map_of_mem hc)
  have hlt : 0 < c.toNat := UInt64.lt_iff_toNat_lt.mp (of_decide_eq_true hpos)
  exact Nat.lt_of_lt_of_le hlt hle

/-- **Exclusive sections.** With statistics, every process has made the calls of rank zero. -/
theorem calls_mul_length_of_exclusive (h : s.statistics? = some t) (hexclusive : s.exclusive = true) :
    s.calls.toNat * s.samples.length = s.intervals := by
  obtain ⟨hconsistent, hsamples⟩ := consistent_of_statistics? h
  have hsame : allSame s.callCounts = true := by
    simpa [isConsistent, hexclusive] using hconsistent
  have hne : s.callCounts ≠ [] := by
    rw [ne_eq, ← List.length_eq_zero_iff, length_callCounts, List.length_eq_zero_iff]
    exact hsamples
  obtain ⟨first, rest, hcounts⟩ := List.exists_cons_of_ne_nil hne
  rw [hcounts] at hsame
  have hall : ∀ n ∈ s.callCounts.map UInt64.toNat, n = first.toNat := by
    intro n hn
    obtain ⟨c, hc, rfl⟩ := List.mem_map.mp hn
    rw [hcounts] at hc
    rcases List.mem_cons.mp hc with rfl | hc
    · rfl
    · rw [eq_of_allSame hsame c hc]
  rw [intervals, List.eq_replicate_of_mem hall, List.sum_replicate_nat, List.length_map,
    length_callCounts, calls, hcounts, List.headD_cons, Nat.mul_comm]

/-! ## The mean time of an interval -/

/-- The summary computes with floating-point numbers. -/
theorem timePerCall?_eq (h : s.statistics? = some t) :
    s.timePerCall?
      = Arithmetic.floating.timePerCall? (s.samples.map Sample.elapsed) s.callCounts := by
  obtain ⟨-, hsamples⟩ := consistent_of_statistics? h
  have hmean : t.meanTime = Arithmetic.floating.mean (s.samples.map Sample.elapsed) := by
    rw [statistics?] at h
    split_ifs at h
    rw [← Option.some.inj h, Statistics.ofSamples, SectionMonitor.mean,
      if_neg (by simpa using hsamples)]
    rfl
  rw [timePerCall?, h, Option.bind_some, hmean]
  rfl

/-- **The mean time of an interval.** Take a section with statistics that some process has called.
The summary divides the mean time by the calls of rank zero, and has no result if there are none.
Computed exactly, whatever the times are, the result is the time of all processes divided by the
intervals of all processes exactly if rank zero has calls and, unless there was no time at all, as
many as the processes have on average. Exclusive sections meet this condition. -/
theorem mean_interval_time_iff (h : s.statistics? = some t) (hcalled : s.hasCalls = true)
    (value : Float → ℚ) :
    let times := s.samples.map fun sample ↦ value sample.elapsed
    s.timePerCall?
        = Arithmetic.floating.timePerCall? (s.samples.map Sample.elapsed) s.callCounts ∧
      (s.timePerCall?.isSome ↔ 0 < s.calls) ∧
      (Arithmetic.exact.timePerCall? times s.callCounts = some (times.sum / s.intervals) ↔
        0 < s.calls ∧ (times.sum = 0 ∨ s.calls.toNat * s.samples.length = s.intervals)) ∧
      (s.exclusive = true → 0 < s.calls ∧ s.calls.toNat * s.samples.length = s.intervals) := by
  intro times
  refine ⟨timePerCall?_eq h, ?present, ?exact, ?exclusive⟩
  case present =>
    rw [timePerCall?_eq h, Arithmetic.timePerCall?]
    split_ifs with hcalls
    · exact iff_of_true rfl hcalls
    · exact iff_of_false Bool.false_ne_true hcalls
  case exact =>
    have hlength : times.length = s.samples.length := List.length_map ..
    rw [← hlength]
    exact Arithmetic.exact_timePerCall?_eq_iff times s.callCounts s.intervals
  case exclusive =>
    intro hexclusive
    -- Some process has calls, and the product counts them.
    have hproduct := calls_mul_length_of_exclusive h hexclusive
    have hcalls : 0 < s.calls.toNat := by
      apply Nat.pos_of_mul_pos_right
      rw [hproduct]
      exact intervals_pos hcalled
    exact ⟨UInt64.lt_iff_toNat_lt.mpr hcalls, hproduct⟩

/-- A section that may overlap others: rank zero has finished one interval, rank one three, and each
took a second. -/
def polls : SectionSummary where
  label := "poll"
  properties := ⟨.communication, false⟩
  source := .userSupplied
  samples := [⟨1, 0, 1⟩, ⟨3, 0, 3⟩]
  counters := [[], []]

/-- A section that may overlap others and that only rank one has finished. -/
def spills : SectionSummary where
  label := "spill"
  properties := ⟨.computation, false⟩
  source := .userSupplied
  samples := [⟨0, 0, 0⟩, ⟨1, 0, 1⟩]
  counters := [[], []]

/-- The summary says that a poll took two seconds and does not say how long a spill took. Both took
one second, and it is not the rounding that makes the difference. -/
theorem polls_take_two :
    let pollTimes := polls.samples.map fun sample ↦ Binary64.value sample.elapsed
    let spillTimes := spills.samples.map fun sample ↦ Binary64.value sample.elapsed
    polls.timePerCall? = some 2 ∧ pollTimes.sum / polls.intervals = 1 ∧
      Arithmetic.exact.timePerCall? pollTimes polls.callCounts ≠ some 1 ∧
      spills.timePerCall? = none ∧ spillTimes.sum / spills.intervals = 1 := by
  intro pollTimes spillTimes
  obtain ⟨hpolls, -, hright, -⟩ :=
    mean_interval_time_iff (s := polls) rfl (by decide +kernel) Binary64.value
  obtain ⟨-, hpresent, -, -⟩ :=
    mean_interval_time_iff (s := spills) rfl (by decide +kernel) Binary64.value
  have hpoll : pollTimes.sum / polls.intervals = 1 := by decide +kernel
  have hspill : spillTimes.sum / spills.intervals = 1 := by decide +kernel
  refine ⟨?two, hpoll, ?not_one, ?absent, hspill⟩
  case two =>
    rw [hpolls]
    decide +kernel
  case not_one =>
    intro hone
    rw [← hpoll, hright] at hone
    -- Rank zero has made one call, the processes have made two on average.
    exact absurd hone.2 (by decide +kernel)
  case absent =>
    rw [← Option.not_isSome_iff_eq_none, hpresent]
    decide +kernel

end SectionSummary

end SectionMonitor
