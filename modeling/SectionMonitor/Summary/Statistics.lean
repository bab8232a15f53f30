import SectionMonitor.Count

/-!
# Statistics over processes

Every process contributes one sample per section. Samples are summarised by their mean and by the
sample standard deviation, which divides by one less than the number of samples. Sums run from
left to right.
-/

namespace SectionMonitor

/-! ## Sums, means and deviations -/

/-- The sum from left to right. An empty sum is the neutral element of floating-point addition,
which is the negative zero. -/
def sum (xs : List Float) : Float := xs.foldl (· + ·) (-0.0)

/-- The mean; of nothing it is zero. -/
def mean (xs : List Float) : Float := if xs.isEmpty then 0 else sum xs / Float.ofNat xs.length

/-- The sample standard deviation; below two samples it is zero. A second pass over the samples
keeps the variance from becoming negative. -/
def deviation (xs : List Float) : Float :=
  if xs.length < 2 then 0
  else
    let m := mean xs
    let squares := xs.map fun x ↦ (x - m) * (x - m)
    (sum squares / (Float.ofNat xs.length - 1)).sqrt

/-- The largest of zero and the given numbers. What is not a number is passed over. -/
def largest (xs : List Float) : Float := xs.foldl (fun m x ↦ if m < x then x else m) 0

/-! ## The total order -/

/-- The place of a number in the total order of all floating-point numbers, from the negative infinity
to the positive one, with the negative zero before the positive one. What is no number comes last:
`Float` has a single value of this sort, without a sign bit. Negative numbers are written with a
sign bit, so their order is reversed. -/
def orderKey (x : Float) : Int :=
  let bits := x.toBits.toNat
  let signBit := 0x8000000000000000
  -- The two zeros get the neighbouring places 0 and -1.
  if bits < signBit then Int.ofNat bits else Int.ofNat signBit - 1 - Int.ofNat bits

/-! ## Samples -/

/-- What one process measured of a section. -/
structure Sample where
  /-- Seconds spent in the section. -/
  elapsed : Float
  volume : Float
  calls : Count
  deriving DecidableEq, Repr

/-- Means and deviations over the samples of a section. -/
structure Statistics where
  meanTime : Float
  deviationTime : Float
  meanVolume : Float
  deviationVolume : Float
  deriving DecidableEq, Repr

/-- The statistics of some samples. -/
def Statistics.ofSamples (samples : List Sample) : Statistics :=
  let times := samples.map Sample.elapsed
  let volumes := samples.map Sample.volume
  ⟨mean times, deviation times, mean volumes, deviation volumes⟩

end SectionMonitor
