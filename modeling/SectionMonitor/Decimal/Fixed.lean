import SectionMonitor.Decimal.Rounding

/-!
# Fixed-point and scientific texts

Two decimal forms of a floating-point number: a fixed number of places after the point, and one
digit before the point with an exponent. Both show the exact binary value, correctly rounded.
-/

namespace SectionMonitor.Decimal

/-! ## Fixed places -/

/-- A magnitude with exactly `places` digits after the point; without places there is no point. -/
def fixedMagnitude (places n d : Nat) : String :=
  let scaled := roundDiv (n * powerOfTen places) d
  if places = 0 then Nat.repr scaled
  else Nat.repr (scaled / powerOfTen places) ++ "." ++ digits places (scaled % powerOfTen places)

/-- A number with exactly `places` digits after the point. -/
def fixed (places : Nat) (x : Float) : String :=
  (ExactValue.ofFloat x).render (fixedMagnitude places)

/-! ## Scientific form -/

/-- The exponent `k` with `10 ^ k ≤ n / d < 10 ^ (k + 1)`, for positive `n` and `d`. Below one it is
minus the number of digits of `⌈d / n⌉ - 1`, the least power of ten that lifts `n / d` to one. -/
def decimalExponent (n d : Nat) : Int :=
  if d ≤ n then Int.ofNat (digitCount (n / d)) - 1
  else -Int.ofNat (digitCount ((n + d - 1) / n - 1))

/-- A magnitude with one digit before the point, `places` after it, and its power of ten. -/
def scientificMagnitude (places n d : Nat) : String :=
  let render (significand : Nat) (exponent : Int) : String :=
    let head := Nat.repr (significand / powerOfTen places)
    let tail := if places = 0 then "" else "." ++ digits places (significand % powerOfTen places)
    let sign := if exponent < 0 then "-" else ""
    head ++ tail ++ "e" ++ sign ++ Nat.repr exponent.natAbs
  if n = 0 then render 0 0
  else
    let exponent := decimalExponent n d
    let shift := Int.ofNat places - exponent
    let significand := roundDiv (n * powerOfTen shift.toNat) (d * powerOfTen (-shift).toNat)
    -- Rounding up nine after nine carries into a new digit, as from 9.99996 to 1.0000e1.
    if significand = powerOfTen (places + 1) then render (powerOfTen places) (exponent + 1)
    else render significand exponent

/-- A number in scientific form with `places` digits after the point. -/
def scientific (places : Nat) (x : Float) : String :=
  (ExactValue.ofFloat x).render (scientificMagnitude places)

end SectionMonitor.Decimal
