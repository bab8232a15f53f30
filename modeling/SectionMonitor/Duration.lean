/-!
# Durations

A duration is a whole number of nanoseconds. Seconds are counted in a 64-bit word, so there is a
largest duration, and sums stop there. A difference stops at zero: a clock that runs backwards
yields an empty interval, never a negative one.
-/

namespace SectionMonitor

/-- A length of time, or a point in time measured from a fixed start. -/
structure Duration where
  /-- The whole length in nanoseconds. -/
  nanos : Nat
  deriving DecidableEq, Repr

namespace Duration

/-- Nanoseconds in a second. -/
def nanosPerSecond : Nat := 1000000000

/-- The nanoseconds of the largest duration: all 64-bit seconds are used up. -/
def limit : Nat := 18446744073709551616 * nanosPerSecond - 1

/-- No time at all. -/
def zero : Duration := ⟨0⟩

/-- The sum, or the largest duration if the sum does not fit. -/
def saturatingAdd (a b : Duration) : Duration := ⟨min (a.nanos + b.nanos) limit⟩

/-- The time from `b` to `a`, or zero if `b` is later. -/
def saturatingSub (a b : Duration) : Duration := ⟨a.nanos - b.nanos⟩

/-- The longer of two durations. -/
def longer (a b : Duration) : Duration := ⟨max a.nanos b.nanos⟩

/-- The length in seconds. Whole seconds and the rest are rounded separately before they are
added, so a long duration keeps the precision of its seconds. -/
def seconds (d : Duration) : Float :=
  Float.ofNat (d.nanos / nanosPerSecond) +
    Float.ofNat (d.nanos % nanosPerSecond) / Float.ofNat nanosPerSecond

@[simp] theorem nanos_zero : zero.nanos = 0 := rfl

@[simp] theorem nanos_saturatingAdd (a b : Duration) :
    (a.saturatingAdd b).nanos = min (a.nanos + b.nanos) limit := rfl

@[simp] theorem nanos_saturatingSub (a b : Duration) :
    (a.saturatingSub b).nanos = a.nanos - b.nanos := rfl

@[simp] theorem nanos_longer (a b : Duration) :
    (a.longer b).nanos = max a.nanos b.nanos := rfl

end Duration

end SectionMonitor
