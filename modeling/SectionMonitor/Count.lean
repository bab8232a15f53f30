/-!
# Counts

Intervals, units of work and hardware events are counted in 64-bit words. A sum of counts stops
at the largest word and a difference stops at zero: a total that no longer fits is reported as
the largest one, never as a small one.
-/

namespace SectionMonitor

/-- A 64-bit count of intervals, work units or hardware events. -/
abbrev Count := UInt64

namespace Count

/-- The largest count: all 64 bits are set. -/
def limit : Nat := 18446744073709551615

/-- The count closest to `n`. -/
def saturate (n : Nat) : Count := UInt64.ofNat (min n limit)

/-- The sum of two counts, or the largest count if the sum does not fit. -/
def saturatingAdd (a b : Count) : Count := saturate (a.toNat + b.toNat)

/-- The difference of two counts, or zero if `b` exceeds `a`. -/
def saturatingSub (a b : Count) : Count := saturate (a.toNat - b.toNat)

@[simp] theorem toNat_saturate (n : Nat) : (saturate n).toNat = min n limit := by
  have h : min n limit < 2 ^ 64 := Nat.lt_of_le_of_lt (Nat.min_le_right n limit) (by decide)
  rw [saturate, UInt64.toNat_ofNat', Nat.mod_eq_of_lt h]

@[simp] theorem toNat_saturatingAdd (a b : Count) :
    (a.saturatingAdd b).toNat = min (a.toNat + b.toNat) limit := toNat_saturate _

@[simp] theorem toNat_saturatingSub (a b : Count) :
    (a.saturatingSub b).toNat = a.toNat - b.toNat := by
  have h : a.toNat ≤ limit := Nat.le_sub_one_of_lt a.toNat_lt
  rw [saturatingSub, toNat_saturate, Nat.min_eq_left (Nat.le_trans (Nat.sub_le _ _) h)]

@[simp] theorem saturatingAdd_zero (a : Count) : a.saturatingAdd 0 = a := by
  apply UInt64.toNat_inj.mp
  have h : a.toNat ≤ limit := Nat.le_sub_one_of_lt a.toNat_lt
  rw [toNat_saturatingAdd, show (0 : Count).toNat = 0 from rfl, Nat.add_zero, Nat.min_eq_left h]

@[simp] theorem zero_saturatingAdd (a : Count) : saturatingAdd 0 a = a := by
  apply UInt64.toNat_inj.mp
  have h : a.toNat ≤ limit := Nat.le_sub_one_of_lt a.toNat_lt
  rw [toNat_saturatingAdd, show (0 : Count).toNat = 0 from rfl, Nat.zero_add, Nat.min_eq_left h]

end Count

/-! ## Counter readings

The counters of a thread are read as one count per measured event, in the order of the events. -/

/-- One count per event; an event beyond the end counts zero. -/
abbrev Reading := List Count

namespace Reading

/-- Adds two readings event by event. The longer one decides how many events there are. -/
def accumulate : Reading → Reading → Reading
  | [], other => other
  | total, [] => total
  | a :: total, b :: other => a.saturatingAdd b :: accumulate total other

/-- The sum of several readings. -/
def total (readings : List Reading) : Reading := readings.foldl accumulate []

/-- The count of an event by its position. -/
def count (reading : Reading) (event : Nat) : Count := reading.getD event 0

theorem length_accumulate (a b : Reading) : (a.accumulate b).length = max a.length b.length := by
  induction a generalizing b with
  | nil => simp [accumulate]
  | cons x a ih =>
    cases b with
    | nil => simp [accumulate]
    | cons y b => simp [accumulate, ih, Nat.succ_max_succ]

/-- A sum of readings is a sum for every event. -/
theorem count_accumulate (a b : Reading) (event : Nat) :
    (a.accumulate b).count event = (a.count event).saturatingAdd (b.count event) := by
  induction a generalizing b event with
  | nil => simp [accumulate, count]
  | cons x a ih =>
    cases b with
    | nil => simp [accumulate, count]
    | cons y b =>
      cases event with
      | zero => simp [accumulate, count]
      | succ event => simpa [accumulate, count] using ih b event

end Reading

end SectionMonitor
