/-!
# Exact decimal rounding

A finite binary floating-point number is a fraction of natural numbers with a sign. Decimal texts
are made from that fraction by one rounded division, so no intermediate result is ever inexact.
A half goes to the even neighbour.
-/

namespace SectionMonitor.Decimal

/-- The quotient of `n` and `d` rounded to the nearest natural number, a half to the even one. -/
def roundDiv (n d : Nat) : Nat :=
  let quotient := n / d
  let twice := 2 * (n % d)
  if twice < d then quotient
  else if d < twice then quotient + 1
  else quotient + quotient % 2

/-- The number of decimal digits of `n`. Zero has one. -/
def digitCount (n : Nat) : Nat := (Nat.toDigits 10 n).length

/-- What a binary floating-point number denotes. -/
inductive ExactValue where
  /-- Not a number. -/
  | undefined
  /-- Beyond all finite numbers, on the negative side if the flag is set. -/
  | infinite (negative : Bool)
  /-- The fraction `numerator / denominator`, negated if the flag is set. Zero has a sign too. -/
  | finite (negative : Bool) (numerator denominator : Nat)
  deriving DecidableEq, Repr

/-- Reads the sign bit, the eleven bits of the exponent and the 52 bits of the fraction. A zero
exponent marks the numbers without a leading bit, which share the unit of the exponent one. -/
def ExactValue.ofFloat (x : Float) : ExactValue :=
  let bits := x.toBits.toNat
  let leadingBit := 0x10000000000000
  let negative := bits / leadingBit / 2048 == 1
  let exponent := bits / leadingBit % 2048
  let fraction := bits % leadingBit
  if exponent = 2047 then
    if fraction = 0 then .infinite negative else .undefined
  else
    let significand := if exponent = 0 then fraction else leadingBit + fraction
    let scale := max exponent 1
    .finite negative (significand * Nat.pow 2 (scale - 1075)) (Nat.pow 2 (1075 - scale))

/-- The text of a number, given the text of a finite magnitude `numerator / denominator`. -/
def ExactValue.render (magnitude : Nat → Nat → String) : ExactValue → String
  | .undefined => "NaN"
  | .infinite negative => (if negative then "-" else "") ++ "inf"
  | .finite negative n d => (if negative then "-" else "") ++ magnitude n d

/-- The power of ten with `k` zeros. -/
def powerOfTen (k : Nat) : Nat := Nat.pow 10 k

/-- Decimal digits of `n`, filled up with leading zeros to at least `width` digits. -/
def digits (width n : Nat) : String :=
  let text := Nat.repr n
  "".pushn '0' (width - text.length) ++ text

end SectionMonitor.Decimal
