import Mathlib
import SectionMonitor.Proofs.FloatAmounts
import SectionMonitor.Summary.Basic

/-!
# Statistics of one number

A sum begins with the negative zero and a mean divides by how many numbers there are. Of a single
number neither leaves a trace: `-0.0 + x = x` and `x / 1 = x` hold bit for bit, whatever `x` is.
A number divided by one is first given more digits, and these are dropped again when the quotient is
rounded; what is dropped is zero (`roundWithAccuracy_of_canonical`).

The largest of a single number is that number only if it is an amount, as seconds are.
-/

namespace SectionMonitor

namespace Binary64

open Float.Model
open Float.Model.UnpackedFloat (Sign Accuracy ExtendedMantissa)

/-! ## Adding to the negative zero -/

theorem unpacked_neg_zero : unpacked (-0.0) = .zero .negative := rfl

theorem neg_zero_add (x : Float) : -0.0 + x = x := by
  have hadd (f : UnpackedFloat) : UnpackedFloat.add Format.binary64 (.zero .negative) f = f := by
    cases f with
    | zero s => cases s <;> rfl
    | finite s m e hm => rfl
    | infinity s => rfl
    | notANumber => rfl
  rw [add_eq, unpacked_neg_zero, hadd, ofModel_pack_unpacked]

/-! ## Dividing by one -/

theorem unpacked_one :
    unpacked (Float.ofNat 1) = .finite .positive 0x10000000000000 (-52) (by decide) := rfl

theorem div_eq (x y : Float) :
    x / y = .ofModel (.pack (UnpackedFloat.div Format.binary64 (unpacked x) (unpacked y))) := rfl

/-- Zeros that have been added can be dropped again, and nothing is lost. -/
theorem shiftRight_shiftLeft (m k : ℕ) :
    ExtendedMantissa.ofMantissaAndAccuracy (m <<< k) .exact >>> k
      = ExtendedMantissa.ofMantissaAndAccuracy m .exact := by
  induction k generalizing m with
  | zero => rfl
  | succ k ih =>
    have hone : (ExtendedMantissa.ofMantissaAndAccuracy (2 * m) .exact).shiftRightOne
        = ExtendedMantissa.ofMantissaAndAccuracy m .exact := by
      simp [ExtendedMantissa.ofMantissaAndAccuracy, ExtendedMantissa.shiftRightOne]
    have hstep : ExtendedMantissa.ofMantissaAndAccuracy (m <<< (k + 1)) .exact >>> (k + 1)
        = (ExtendedMantissa.ofMantissaAndAccuracy ((2 * m) <<< k) .exact >>> k).shiftRightOne := by
      rw [Nat.shiftLeft_succ_inside]
      rfl
    rw [hstep, ih, hone]

theorem roundedExponent_of_canonical {s : Sign} {m : ℕ} {e : ℤ} {hm : 0 < m}
    (h : Canonical (.finite s m e hm)) : roundedExponent m e = e := by
  obtain ⟨hlt, hle, hlow⟩ := h
  have hlog : m.log2 < 53 := (Nat.log2_lt hm.ne').mpr hlt
  rw [roundedExponent]
  rcases hlow with hnormal | hleast
  · have hfull : 52 ≤ m.log2 := (Nat.le_log2 hm.ne').mpr hnormal
    omega
  · omega

/-- **What fits is not rounded.** Zeros below the digits of a float make no difference. -/
theorem roundWithAccuracy_of_canonical {s : Sign} {m : ℕ} {e : ℤ} {hm : 0 < m}
    (h : Canonical (.finite s m e hm)) (k : ℕ) :
    UnpackedFloat.roundWithAccuracy Format.binary64 s (m <<< k) (e - k) .exact
      = .finite s m e hm := by
  have hfixed : roundedExponent m e = e := roundedExponent_of_canonical h
  have hexponent : roundedExponent (m <<< k) (e - k) = e := by
    rw [roundedExponent] at hfixed ⊢
    rw [log2_shiftLeft hm]
    omega
  have hfirst : UnpackedFloat.shiftToTargetExponent Format.binary64 (m <<< k) (e - k) .exact
      = (ExtendedMantissa.ofMantissaAndAccuracy m .exact, e) := by
    have hplaces : (e - (e - k)).toNat = k := by omega
    rw [UnpackedFloat.shiftToTargetExponent, UnpackedFloat.shiftToExponent, targetExponent_eq,
      hexponent, hplaces, shiftRight_shiftLeft, Int.sub_add_cancel]
  have hsecond : UnpackedFloat.shiftToTargetExponent Format.binary64 m e .exact
      = (ExtendedMantissa.ofMantissaAndAccuracy m .exact, e) := by
    rw [UnpackedFloat.shiftToTargetExponent, UnpackedFloat.shiftToExponent, targetExponent_eq,
      hfixed, Int.sub_self]
    exact congrArg (Prod.mk _) (Int.add_zero e)
  have hmantissa : (ExtendedMantissa.ofMantissaAndAccuracy m .exact).roundedMantissa = m := rfl
  simp only [UnpackedFloat.roundWithAccuracy, hfirst, hmantissa, hsecond,
    mantissa_ofMantissaAndAccuracy]
  rw [dif_neg hm.ne']

/-- The quotient has the digits of the dividend, and zeros below them. -/
theorem divCore_one {s : Sign} {m : ℕ} {e : ℤ} {hm : 0 < m} (h : Canonical (.finite s m e hm)) :
    ∃ k : ℕ, UnpackedFloat.divCore Format.binary64 m e 0x10000000000000 (-52)
      = (m <<< k, e - k, .exact) := by
  have htotal : totalExponent 0x10000000000000 (-52) = 1 := by decide
  -- The digits of the dividend begin above the exponent that is aimed at.
  obtain ⟨k, hk⟩ : ∃ k : ℕ, min (e - -52) (Format.binary64.targetExponent
      (totalExponent m e - totalExponent 0x10000000000000 (-52))) = e - k := by
    have hfixed : roundedExponent m e = e := roundedExponent_of_canonical h
    have htarget : Format.binary64.targetExponent (totalExponent m e - 1) ≤ e := by
      have hmono := targetExponent_eq m e
      rw [hfixed] at hmono
      rw [Format.targetExponent] at hmono ⊢
      omega
    rw [htotal]
    exact ⟨(e - min (e - -52)
      (Format.binary64.targetExponent (totalExponent m e - 1))).toNat, by omega⟩
  have hplaces : (e - -52 - (e - k)).toNat = k + 52 := by omega
  have hshift : m <<< (k + 52) = (m <<< k) * 0x10000000000000 := by
    rw [Nat.shiftLeft_add, Nat.shiftLeft_eq (m <<< k)]
  refine ⟨k, ?_⟩
  rw [UnpackedFloat.divCore]
  simp only [hk, hplaces, hshift]
  rw [Nat.mul_div_cancel _ (by decide), Nat.mul_mod_left]
  rfl

theorem div_one (x : Float) : x / Float.ofNat 1 = x := by
  have hdiv : UnpackedFloat.div Format.binary64 (unpacked x)
      (.finite .positive 0x10000000000000 (-52) (by decide)) = unpacked x := by
    have hcanonical := (canonical_unpacked x).1
    cases hx : unpacked x with
    | zero s => cases s <;> rfl
    | infinity s => cases s <;> rfl
    | notANumber => rfl
    | finite s m e hm =>
      rw [hx] at hcanonical
      obtain ⟨k, hk⟩ := divCore_one hcanonical
      have hsign : s / Sign.positive = s := by cases s <;> rfl
      rw [UnpackedFloat.div]
      simp only [hk, hsign]
      exact roundWithAccuracy_of_canonical hcanonical k
  rw [div_eq, unpacked_one, hdiv, ofModel_pack_unpacked]

/-! ## Seconds are amounts -/

/-- A product or a quotient of an amount and a positive finite number is an amount. -/
theorem Amount.mul_finite {f : UnpackedFloat} (h : Amount f) (m : ℕ) (e : ℤ) (hm : 0 < m) :
    Amount (UnpackedFloat.mul Format.binary64 f (.finite .positive m e hm)) := by
  cases h with
  | zero => exact .zero
  | finite m' e' hm' => exact amount_roundWithAccuracy ..
  | infinity => exact .infinity

theorem Amount.div_finite {f : UnpackedFloat} (h : Amount f) (m : ℕ) (e : ℤ) (hm : 0 < m) :
    Amount (UnpackedFloat.div Format.binary64 f (.finite .positive m e hm)) := by
  cases h with
  | zero => exact .zero
  | finite m' e' hm' => exact amount_roundWithAccuracy ..
  | infinity => exact .infinity

theorem Positive.amount {f : UnpackedFloat} (h : Positive f) : Amount f := by
  cases h with
  | finite m e hm => exact .finite m e hm
  | infinity => exact .infinity

theorem isAmount_toFloat (n : UInt64) : IsAmount n.toFloat := by
  by_cases hn : n = 0
  · rw [hn, toFloat_zero]
    exact isAmount_zero
  · exact ((pos_iff _).mp (toFloat_pos hn)).amount

/-- A number that is small enough is converted and multiplied by one, a larger one is rounded. -/
theorem isAmount_ofNat (n : ℕ) : IsAmount (Float.ofNat n) := by
  change IsAmount (Float.ofScientific n false 0)
  rw [Float.ofScientific]
  split
  · have hpower : unpacked (getElem Float.exactlyRepresentablePowersOfTen 0 (by decide))
        = .finite .positive 0x10000000000000 (-52) (by decide) := rfl
    refine isAmount_ofModel_pack ?_
    change Amount (UnpackedFloat.mul Format.binary64 (unpacked n.toUInt64.toFloat)
      (unpacked (getElem Float.exactlyRepresentablePowersOfTen 0 (by decide))))
    rw [hpower]
    exact (isAmount_toFloat _).mul_finite ..
  · refine isAmount_ofModel_pack ?_
    change Amount (UnpackedFloat.ofScientific Format.binary64 n 0)
    rw [UnpackedFloat.ofScientific]
    split_ifs
    · exact .zero
    · exact .infinity
    · exact .zero
    · exact (Amount.finite ..).mul_finite ..
    · exact (Amount.finite ..).div_finite ..

theorem isAmount_seconds (d : Duration) : IsAmount d.seconds := by
  have hdivisor : unpacked (Float.ofNat Duration.nanosPerSecond)
      = .finite .positive 8388608000000000 (-23) (by decide) := rfl
  refine (isAmount_ofNat _).add (isAmount_ofModel_pack ?_)
  change Amount (UnpackedFloat.div Format.binary64
    (unpacked (Float.ofNat (d.nanos % Duration.nanosPerSecond)))
    (unpacked (Float.ofNat Duration.nanosPerSecond)))
  rw [hdivisor]
  exact (isAmount_ofNat _).div_finite ..

end Binary64

/-! ## Statistics of one number -/

open Binary64

theorem mean_singleton (x : Float) : mean [x] = x := by
  have hsum : sum [x] = x := Binary64.neg_zero_add x
  rw [mean, hsum]
  exact Binary64.div_one x

theorem deviation_singleton (x : Float) : deviation [x] = 0 := rfl

/-- Zero is passed over only for what exceeds it, and the only other amount is zero itself. -/
theorem largest_singleton {x : Float} (h : IsAmount x) : largest [x] = x := by
  change (if 0 < x then x else 0) = x
  split_ifs with hpos
  · rfl
  · have hword : word (unpacked x) = 0 := by
      by_contra hne
      exact hpos ((pos_iff x).mpr (Amount.positive h (Nat.pos_of_ne_zero hne)))
    rw [← ofModel_pack_unpacked x, eq_zero_of_word hword, ← unpacked_zero, ofModel_pack_unpacked]

end SectionMonitor
