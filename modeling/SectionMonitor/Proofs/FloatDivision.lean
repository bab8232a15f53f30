import Mathlib
import SectionMonitor.Proofs.FloatIdentities
import SectionMonitor.Proofs.FloatValues

/-!
# Quotients are rounded to the nearest number

A quotient of two floats is computed with a rest. The rest says in which half of a unit the exact
quotient lies, and this is all that has to be known of it: it is kept in two bits while digits are
dropped (`Locates`), and at the end they tell which of the two neighbouring mantissas is nearer.

The mantissas of one exponent are evenly spaced. Numbers with a smaller exponent lie closer together, but
all of them are below the mantissas with 53 digits, and among these the exact quotient is, unless the
exponent is the least one. So no float at all is nearer (`abs_sub_le_of_rounded`).

A number to which another one is rounded to the nearest is not on the other side of any float
(`IsNearest.le_of_le`). From this it follows that a quotient by one or more cannot be too large for a
float (`div_isNearest`).
-/

namespace SectionMonitor

namespace Binary64

open Float.Model
open Float.Model.UnpackedFloat (Sign Accuracy ExtendedMantissa accuracyOfFraction)

/-! ## The nearest number -/

/-- `r` has the digits of a float, and no number that has them is nearer to `q`. -/
def IsNearest (q r : ℚ) : Prop :=
  Representable r ∧ ∀ y, Representable y → |r - q| ≤ |y - q|

namespace IsNearest

variable {q r y : ℚ}

theorem le_of_le (h : IsNearest q r) (hy : Representable y) (hle : y ≤ q) : y ≤ r := by
  have hnear := h.2 y hy
  rw [abs_of_nonpos (sub_nonpos.mpr hle), abs_le] at hnear
  linarith [hnear.1]

theorem ge_of_ge (h : IsNearest q r) (hy : Representable y) (hge : q ≤ y) : r ≤ y := by
  have hnear := h.2 y hy
  rw [abs_of_nonneg (sub_nonneg.mpr hge), abs_le] at hnear
  linarith [hnear.2]

theorem neg (h : IsNearest q r) : IsNearest (-q) (-r) := by
  refine ⟨h.1.neg, fun y hy ↦ ?_⟩
  calc |-r - -q| = |r - q| := by rw [neg_sub_neg, abs_sub_comm]
    _ ≤ |-y - q| := h.2 (-y) hy.neg
    _ = |y - -q| := by rw [← neg_add', abs_neg, sub_neg_eq_add]

theorem signed (h : IsNearest q r) (s : Sign) : IsNearest (signed s q) (signed s r) := by
  cases s with
  | positive => exact h
  | negative => exact h.neg

/-- Zero is a float, so rounding does not cross it. -/
theorem abs (h : IsNearest q r) : IsNearest |q| |r| := by
  rcases le_total 0 q with hq | hq
  · rwa [abs_of_nonneg hq, abs_of_nonneg (h.le_of_le .zero hq)]
  · rw [abs_of_nonpos hq, abs_of_nonpos (h.ge_of_ge .zero hq)]
    exact h.neg

theorem sign_eq (h : IsNearest q r) (hr : r ≠ 0) : SignType.sign r = SignType.sign q := by
  rcases lt_trichotomy q 0 with hq | rfl | hq
  · have hle : r ≤ 0 := h.ge_of_ge .zero hq.le
    rw [sign_neg hq, sign_neg (hle.lt_of_ne hr)]
  · exact absurd (le_antisymm (h.ge_of_ge .zero le_rfl) (h.le_of_le .zero le_rfl)) hr
  · have hge : 0 ≤ r := h.le_of_le .zero hq.le
    rw [sign_pos hq, sign_pos (hge.lt_of_ne' hr)]

end IsNearest

/-! ## The half of a unit that a number is in -/

/-- The bits of an extended mantissa tell in which half of a unit a number lies, and whether it is the
least number there. -/
structure Locates (em : ExtendedMantissa) (t : ℚ) : Prop where
  le : 2 * em.mantissa + em.roundBit.toNat ≤ 2 * t
  lt : 2 * t < 2 * em.mantissa + em.roundBit.toNat + 1
  eq_of_not_sticky : em.stickyBit = false → 2 * t = 2 * em.mantissa + em.roundBit.toNat

namespace Locates

variable {em : ExtendedMantissa} {t : ℚ}

theorem shiftRightOne (h : Locates em t) : Locates em.shiftRightOne (t / 2) := by
  obtain ⟨m, r, s⟩ := em
  obtain ⟨hle, hlt, heq⟩ := h
  dsimp only at hle hlt heq
  have hhalf : (2 * (m / 2 : ℕ) + (m % 2 != 0).toNat : ℚ) = m := by
    have hbit : (m % 2 != 0).toNat = m % 2 := by
      rcases Nat.mod_two_eq_zero_or_one m with h | h <;> rw [h] <;> rfl
    rw [hbit]
    exact_mod_cast Nat.div_add_mod m 2
  have hnonneg : (0 : ℚ) ≤ r.toNat := Nat.cast_nonneg _
  have hone : (r.toNat : ℚ) ≤ 1 := by exact_mod_cast Bool.toNat_le r
  rw [ExtendedMantissa.shiftRightOne]
  refine ⟨?_, ?_, fun hsticky ↦ ?_⟩ <;> dsimp only at *
  · linarith
  · linarith
  · obtain ⟨rfl, hs⟩ := Bool.or_eq_false_iff.mp hsticky
    have hexact := heq hs
    rw [Bool.toNat_false, Nat.cast_zero] at hexact
    linarith

/-- Dropping digits halves the number each time. -/
theorem shiftRight (h : Locates em t) (k : ℕ) : Locates (em >>> k) (t / 2 ^ k) := by
  induction k with
  | zero =>
    have hsame : t / 2 ^ 0 = t := by simp
    rwa [hsame]
  | succ k ih =>
    rw [pow_succ, ← div_div]
    exact ih.shiftRightOne

theorem mantissa_le (h : Locates em t) : (em.mantissa : ℚ) ≤ t := by
  have hnonneg : (0 : ℚ) ≤ em.roundBit.toNat := Nat.cast_nonneg _
  linarith [h.le]

/-- **Half a unit.** Rounding changes the number by no more than that. -/
theorem abs_rounded_sub_le (h : Locates em t) : |(em.roundedMantissa : ℚ) - t| ≤ 1 / 2 := by
  obtain ⟨m, r, s⟩ := em
  obtain ⟨hle, hlt, heq⟩ := h
  dsimp only at hle hlt heq
  rw [abs_le]
  cases r with
  | false =>
    have hdown : (ExtendedMantissa.mk m false s).roundedMantissa = m := by cases s <;> rfl
    rw [Bool.toNat_false, Nat.cast_zero] at hle hlt
    rw [hdown]
    constructor <;> linarith
  | true =>
    rw [Bool.toNat_true, Nat.cast_one] at hle hlt heq
    cases s with
    | true =>
      have hup : (ExtendedMantissa.mk m true true).roundedMantissa = m + 1 := rfl
      rw [hup, Nat.cast_add_one]
      constructor <;> linarith
    | false =>
      -- A tie: both neighbours are as far away.
      have htie := heq rfl
      rcases roundedMantissa_mem ⟨m, true, false⟩ with hdown | hup
      · rw [hdown]
        constructor <;> linarith
      · rw [hup, Nat.cast_add_one]
        constructor <;> linarith

end Locates

/-- **The rest of a division** tells in which half of a unit the quotient lies. -/
theorem locates_quotient (n : ℕ) {d : ℕ} (hd : 0 < d) :
    Locates (ExtendedMantissa.ofMantissaAndAccuracy (n / d) (accuracyOfFraction (n % d) d))
      (n / d : ℚ) := by
  have hpos : (0 : ℚ) < d := Nat.cast_pos.mpr hd
  have hquotient : (n / d : ℚ) = (n / d : ℕ) + (n % d : ℕ) / d := by
    have hsum : (n : ℚ) = d * (n / d : ℕ) + (n % d : ℕ) := by
      exact_mod_cast (Nat.div_add_mod n d).symm
    rw [div_eq_iff hpos.ne', add_mul, div_mul_cancel₀ _ hpos.ne', mul_comm]
    exact hsum
  have hlt := Nat.mod_lt n hd
  rw [hquotient]
  generalize n % d = rest at *
  generalize n / d = quotient at *
  have hnonneg : (0 : ℚ) ≤ rest / d := div_nonneg (Nat.cast_nonneg _) hpos.le
  have hone : (rest / d : ℚ) < 1 := (div_lt_one hpos).mpr (by exact_mod_cast hlt)
  have hdouble : 2 * (rest / d : ℚ) = (2 * rest : ℕ) / d := by
    rw [Nat.cast_mul, mul_div_assoc, Nat.cast_ofNat]
  rw [accuracyOfFraction]
  split_ifs with hzero
  · rw [hzero]
    change Locates ⟨quotient, false, false⟩ _
    refine ⟨?_, ?_, fun _ ↦ ?_⟩ <;> simp
  · rcases lt_trichotomy (2 * rest) d with h | h | h
    · have hhalf : 2 * (rest / d : ℚ) < 1 := by
        rw [hdouble, div_lt_one hpos]
        exact_mod_cast h
      rw [compare_lt_iff_lt.mpr h]
      change Locates ⟨quotient, false, true⟩ _
      refine ⟨?_, ?_, nofun⟩ <;> simp <;> linarith
    · have hhalf : 2 * (rest / d : ℚ) = 1 := by rw [hdouble, h, div_self hpos.ne']
      rw [compare_eq_iff_eq.mpr h]
      change Locates ⟨quotient, true, false⟩ _
      refine ⟨?_, ?_, fun _ ↦ ?_⟩ <;> simp <;> linarith
    · have hhalf : 1 ≤ 2 * (rest / d : ℚ) := by
        rw [hdouble, one_le_div hpos]
        exact_mod_cast h.le
      rw [compare_gt_iff_gt.mpr h]
      change Locates ⟨quotient, true, true⟩ _
      refine ⟨?_, ?_, nofun⟩ <;> simp <;> linarith

/-! ## Rounding -/

/-- The nearest natural number is the nearest integer. -/
theorem abs_sub_le_of_half {n : ℕ} {t : ℚ} (h : |(n : ℚ) - t| ≤ 1 / 2) (j : ℤ) :
    |(n : ℚ) - t| ≤ |(j : ℚ) - t| := by
  rcases eq_or_ne j n with rfl | hne
  · exact le_rfl
  · have hunit : (1 : ℚ) ≤ |(j : ℚ) - n| := by
      exact_mod_cast Int.one_le_abs (sub_ne_zero.mpr hne)
    have htriangle := abs_sub_le (j : ℚ) t n
    rw [abs_sub_comm t] at htriangle
    linarith

/-- **No float is nearer.** Numbers with a place that the mantissa has no more lie below the mantissas
with all their digits. -/
theorem abs_sub_le_of_rounded {t : ℚ} {n : ℕ} {g : ℤ} (h : |(n : ℚ) - t| ≤ 1 / 2)
    (hlow : 0x10000000000000 ≤ t ∨ g = -1074) {y : ℚ} (hy : Representable y) :
    |n * 2 ^ g - t * 2 ^ g| ≤ |y - t * 2 ^ g| := by
  have hscale : (0 : ℚ) < 2 ^ g := two_zpow_pos g
  have hmultiple (j : ℤ) : |n * 2 ^ g - t * 2 ^ g| ≤ |(j : ℚ) * 2 ^ g - t * 2 ^ g| := by
    rw [← sub_mul, ← sub_mul, abs_mul, abs_mul]
    exact mul_le_mul_of_nonneg_right (abs_sub_le_of_half h j) (abs_nonneg _)
  obtain ⟨k, e, hk, he, rfl⟩ := hy
  rcases le_or_gt g e with hge | hlt
  · obtain ⟨j, hj⟩ := Representable.exists_multiple (k := k) hge
    rw [hj]
    exact hmultiple j
  · have hfull : 0x10000000000000 * 2 ^ g ≤ t * 2 ^ g :=
      mul_le_mul_of_nonneg_right (hlow.resolve_right (by omega)) hscale.le
    have hbelow := Representable.lt_of_place_lt hk hlt
    have hleast := hmultiple 0x10000000000000
    rw [Int.cast_ofNat, abs_of_nonpos (sub_nonpos.mpr hfull)] at hleast
    rw [abs_of_nonpos (sub_nonpos.mpr (hbelow.le.trans hfull))]
    linarith

theorem rational_ofMantissa (m : ℕ) (e : ℤ) :
    (ofMantissa m e).isFinite = true ∧ rational (ofMantissa m e) = m * 2 ^ e := by
  rw [ofMantissa]
  split_ifs with hzero
  · rw [hzero, Nat.cast_zero, zero_mul]
    exact ⟨rfl, rfl⟩
  · exact ⟨rfl, rfl⟩

/-- A carry does not change the number. -/
theorem rational_carried {m : ℕ} {e : ℤ} (hle : m ≤ 0x20000000000000) (he : -1074 ≤ e) :
    (carried m e).isFinite = true ∧ rational (carried m e) = m * 2 ^ e := by
  rcases hle.lt_or_eq with hlt | rfl
  · rw [carried_of_lt hlt he]
    exact rational_ofMantissa m e
  · obtain ⟨hfinite, hrational⟩ := rational_ofMantissa 0x10000000000000 (e + 1)
    rw [carried_overflow he, hrational, zpow_add_one₀ (by norm_num)]
    exact ⟨hfinite, by push_cast; ring⟩

/-- Digits are only dropped, never added, if the mantissa has all of them or the exponent is the least
one. -/
theorem exists_dropped {m : ℕ} {e : ℤ} (hlow : 0x10000000000000 ≤ m ∨ e ≤ -1074) :
    ∃ k : ℕ, e + k = roundedExponent m e ∧ m >>> k < 0x20000000000000 ∧
      (0x10000000000000 ≤ m >>> k ∨ e + k = -1074) := by
  obtain ⟨k, hk⟩ : ∃ k : ℕ, e + k = roundedExponent m e := by
    refine ⟨(roundedExponent m e - e).toNat, ?_⟩
    have hlog : 0x10000000000000 ≤ m → 52 ≤ m.log2 := fun hfull ↦
      (Nat.le_log2 (by omega)).mpr hfull
    rw [roundedExponent]
    omega
  refine ⟨k, hk, ?_⟩
  rcases Nat.eq_zero_or_pos m with rfl | hm
  · rw [Nat.zero_shiftRight]
    rw [roundedExponent, Nat.log2_zero] at hk
    omega
  · exact shiftRight_bounds hm hk

/-- **Rounding** to the nearest number. -/
theorem round_isNearest {m : ℕ} {e : ℤ} {accuracy : Accuracy} {t : ℚ}
    (h : Locates (ExtendedMantissa.ofMantissaAndAccuracy m accuracy) t)
    (hlow : 0x10000000000000 ≤ m ∨ e ≤ -1074) :
    let f := UnpackedFloat.roundWithAccuracy Format.binary64 .positive m e accuracy
    Canonical f ∧ f.isFinite = true ∧ IsNearest (t * 2 ^ e) (rational f) := by
  obtain ⟨k, hk, hupper, hfull⟩ := exists_dropped hlow
  have hleast : -1074 ≤ e + k := hk ▸ le_max_right _ _
  have hmem := roundedMantissa_shiftRight_mem m accuracy k
  have hlocates := h.shiftRight k
  have hexact : t * 2 ^ e = t / 2 ^ k * 2 ^ (e + k) := by
    rw [zpow_add₀ (by norm_num), zpow_natCast, mul_comm (2 ^ e : ℚ), ← mul_assoc,
      div_mul_cancel₀ _ (by positivity)]
  have hlarge : 0x10000000000000 ≤ t / 2 ^ k ∨ e + k = -1074 := by
    refine hfull.imp_left fun hle ↦ ?_
    have hmantissa := hlocates.mantissa_le
    rw [mantissa_shiftRight, mantissa_ofMantissaAndAccuracy] at hmantissa
    exact le_trans (by exact_mod_cast hle) hmantissa
  have hbound : (ExtendedMantissa.ofMantissaAndAccuracy m accuracy >>> k).roundedMantissa
      ≤ 0x20000000000000 := by omega
  have hdigits : 0x10000000000000
        ≤ (ExtendedMantissa.ofMantissaAndAccuracy m accuracy >>> k).roundedMantissa ∨
      e + k = -1074 := by omega
  obtain ⟨hcanonical, -⟩ := carried_spec hbound hleast hdigits
  obtain ⟨hfinite, hrational⟩ := rational_carried hbound hleast
  rw [← roundWithAccuracy_eq accuracy hk] at hcanonical hfinite hrational
  refine ⟨hcanonical, hfinite, representable_rational hcanonical, fun y hy ↦ ?_⟩
  rw [hrational, hexact]
  exact abs_sub_le_of_rounded hlocates.abs_rounded_sub_le hlarge hy

/-- The sign has no part in rounding. -/
theorem rational_roundWithAccuracy (s : Sign) (m : ℕ) (e : ℤ) (accuracy : Accuracy) :
    let f := UnpackedFloat.roundWithAccuracy Format.binary64 .positive m e accuracy
    let g := UnpackedFloat.roundWithAccuracy Format.binary64 s m e accuracy
    (Canonical f → Canonical g) ∧ g.isFinite = f.isFinite ∧ rational g = signed s (rational f) := by
  simp only [UnpackedFloat.roundWithAccuracy]
  split_ifs with hzero
  · cases s <;> exact ⟨id, rfl, by simp [rational, signed]⟩
  · exact ⟨id, rfl, rfl⟩

/-! ## Division -/

/-- A dividend that has 53 digits more than the divisor makes a quotient with all its digits. -/
theorem le_shiftLeft_div {m₁ m₂ k : ℕ} (hm₁ : 0 < m₁) (hm₂ : 0 < m₂)
    (h : m₂.log2 + 53 ≤ m₁.log2 + k) : 0x10000000000000 ≤ m₁ <<< k / m₂ := by
  rw [Nat.le_div_iff_mul_le hm₂]
  calc 0x10000000000000 * m₂
      ≤ 0x10000000000000 * 2 ^ (m₂.log2 + 1) := Nat.mul_le_mul_left _ Nat.lt_log2_self.le
    _ = 2 ^ (m₂.log2 + 53) := by
      rw [Nat.pow_add _ _ 53, Nat.pow_succ]
      omega
    _ ≤ 2 ^ (m₁.log2 + k) := Nat.pow_le_pow_right (by decide) h
    _ = 2 ^ m₁.log2 * 2 ^ k := Nat.pow_add ..
    _ ≤ m₁ <<< k := by
      rw [Nat.shiftLeft_eq]
      exact Nat.mul_le_mul_right _ (Nat.log2_self_le hm₁.ne')

/-- **The digits of a quotient.** The dividend is first given so many digits that the quotient has all
of its own, if it is not too small for that. -/
theorem divCore_spec {m₁ m₂ : ℕ} (hm₁ : 0 < m₁) (hm₂ : 0 < m₂) (e₁ e₂ : ℤ) :
    ∃ n e, UnpackedFloat.divCore Format.binary64 m₁ e₁ m₂ e₂
        = (n / m₂, e, accuracyOfFraction (n % m₂) m₂) ∧
      (m₁ * 2 ^ e₁ / (m₂ * 2 ^ e₂) : ℚ) = n / m₂ * 2 ^ e ∧
      (0x10000000000000 ≤ n / m₂ ∨ e ≤ -1074) := by
  obtain ⟨k, hk⟩ : ∃ k : ℕ, min (e₁ - e₂) (max (totalExponent m₁ e₁ - totalExponent m₂ e₂ - 53)
      (-1074)) = e₁ - e₂ - k := ⟨(e₁ - e₂ - min (e₁ - e₂)
        (max (totalExponent m₁ e₁ - totalExponent m₂ e₂ - 53) (-1074))).toNat, by omega⟩
  refine ⟨m₁ <<< k, e₁ - e₂ - k, ?_, ?_, ?_⟩
  · have hplaces : (e₁ - e₂ - (e₁ - e₂ - k)).toNat = k := by omega
    rw [UnpackedFloat.divCore]
    simp only [targetExponent_eq_max, hk, hplaces]
  · have hdivisor : (m₂ : ℚ) ≠ 0 := Nat.cast_ne_zero.mpr hm₂.ne'
    have hscale : (2 : ℚ) ^ e₁ = 2 ^ (e₁ - e₂ - k) * 2 ^ k * 2 ^ e₂ := by
      rw [← zpow_natCast, ← zpow_add₀ (by norm_num), ← zpow_add₀ (by norm_num)]
      congr 1
      omega
    rw [hscale, Nat.shiftLeft_eq, Nat.cast_mul, Nat.cast_pow, Nat.cast_ofNat]
    field_simp
  · refine or_iff_not_imp_right.mpr fun hlarge ↦ ?_
    rw [totalExponent, totalExponent] at hk
    exact le_shiftLeft_div hm₁ hm₂ (by omega)

/-- **Quotients** of unpacked numbers. -/
theorem div_spec {f : UnpackedFloat} (hfinite : f.isFinite = true) (s' : Sign) {m' : ℕ} (e' : ℤ)
    (hm' : 0 < m') :
    let g := UnpackedFloat.div Format.binary64 f (.finite s' m' e' hm')
    Canonical g ∧ g.isFinite = true ∧
      IsNearest (rational f / rational (.finite s' m' e' hm')) (rational g) := by
  cases f with
  | notANumber => cases hfinite
  | infinity s => cases hfinite
  | zero s =>
    refine ⟨trivial, rfl, ?_⟩
    simp only [UnpackedFloat.div, rational, zero_div]
    exact ⟨.zero, fun y _ ↦ by simp⟩
  | finite s m e hm =>
    obtain ⟨n, e₀, hcore, hquotient, hdigits⟩ := divCore_spec hm hm' e e'
    obtain ⟨hcanonical, hfinite', hnearest⟩ :=
      round_isNearest (locates_quotient n hm') hdigits
    obtain ⟨hcanonical', hsame, hsigned⟩ := rational_roundWithAccuracy (s / s') (n / m') e₀
      (accuracyOfFraction (n % m') m')
    have hsign : rational (.finite s m e hm) / rational (.finite s' m' e' hm')
        = signed (s / s') (n / m' * 2 ^ e₀) := by
      rw [← hquotient, rational, rational]
      cases s <;> cases s' <;> simp [signed, neg_div, div_neg] <;> rfl
    simp only [UnpackedFloat.div, hcore]
    rw [hsign, hsigned, hsame]
    exact ⟨hcanonical' hcanonical, hfinite', hnearest.signed _⟩

/-- **Division.** A finite number is divided by a number that is one or more. The quotient is rounded
to a nearest float. -/
theorem div_isNearest {x y : Float} (hx : x.isFinite = true) (hy : 1 ≤ value y) :
    (x / y).isFinite = true ∧ IsNearest (value x / value y) (value (x / y)) := by
  obtain ⟨hcanonical, hbounded⟩ := canonical_unpacked x
  obtain ⟨s', m', e', hm', hunpacked⟩ :
      ∃ s' m' e' hm', unpacked y = .finite s' m' e' hm' := by
    rw [value] at hy
    cases h : unpacked y with
    | finite s' m' e' hm' => exact ⟨s', m', e', hm', rfl⟩
    | _ =>
      rw [h, rational] at hy
      exact absurd hy (by norm_num)
  obtain ⟨hcanonical', hfinite', hnearest⟩ := div_spec (f := unpacked x) hx s' e' hm'
  rw [← hunpacked] at hcanonical' hfinite' hnearest
  -- The dividend itself is a float, so rounding does not go beyond it.
  have hle : |rational (UnpackedFloat.div Format.binary64 (unpacked x) (unpacked y))|
      ≤ |rational (unpacked x)| := by
    have habs : Representable |value x| := by
      rw [← value_abs]
      exact representable_value _
    refine hnearest.abs.ge_of_ge habs ?_
    rw [abs_div, ← value, ← value]
    exact div_le_self (abs_nonneg _) (hy.trans (le_abs_self _))
  have hread := unpacked_ofModel_pack hcanonical' (bounded_of_abs_le hcanonical' hcanonical hbounded hle)
  rw [isFinite_eq, value, value, value, div_eq, hread]
  exact ⟨hfinite', hnearest⟩

end Binary64
end SectionMonitor
